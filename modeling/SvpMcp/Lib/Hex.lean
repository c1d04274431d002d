import SvpMcp.Lib.Base64
import SvpMcp.Lib.Strings

/-!
# Hexadecimal

Byte strings as `encoding/hex` reads and writes them, the strict reader of `hexutil` and the
lenient `FromHex`.
-/

namespace SvpMcp

variable {text : List Char} {bytes : Bytes} {c : Char} {n : Nat}

namespace Hex

/-- The digit of a four-bit value, in lower case. -/
def symbol (n : Nat) : Char :=
  if n < 10 then Char.ofNat (48 + n) else Char.ofNat (87 + n)

/-- The four-bit value of a digit. -/
def value (c : Char) : Option Nat :=
  if '0' ≤ c ∧ c ≤ '9' then some (c.toNat - 48)
  else if 'a' ≤ c ∧ c ≤ 'f' then some (c.toNat - 87)
  else if 'A' ≤ c ∧ c ≤ 'F' then some (c.toNat - 55)
  else none

/-- The four-bit halves of a byte string, high half first. -/
def nibbles : Bytes → List Nat
  | [] => []
  | b :: rest => b.toNat / 16 :: b.toNat % 16 :: nibbles rest

/-- `hex.EncodeToString`, on characters. -/
def encode (bytes : Bytes) : List Char :=
  (nibbles bytes).map symbol

/-- `hex.DecodeString`, on characters: the bytes read before the first error, and whether the
whole text was read. -/
def decodePart : List Char → Bytes × Bool
  | [] => ([], true)
  | [_] => ([], false)
  | high :: low :: rest =>
    match value high, value low with
    | some h, some l =>
      let (tail, whole) := decodePart rest
      (UInt8.ofNat (16 * h + l) :: tail, whole)
    | _, _ => ([], false)

/-- `hex.DecodeString` when it succeeds. -/
def decode (text : List Char) : Option Bytes :=
  match decodePart text with
  | (bytes, true) => some bytes
  | (_, false) => none

/-- The text spells the bytes: each character is a digit of the right value, in either case. -/
def Spells (text : List Char) (bytes : Bytes) : Prop :=
  text.map value = (nibbles bytes).map some

/-- A byte's halves are below sixteen. -/
theorem nibbles_lt (bytes : Bytes) : ∀ n ∈ nibbles bytes, n < 16 := by
  induction bytes with
  | nil => simp [nibbles]
  | cons b rest ih =>
    have bound := b.toNat_lt
    intro n member
    simp only [nibbles, List.mem_cons] at member
    rcases member with high | low | inside
    · omega
    · omega
    · exact ih n inside

/-- Every digit has its value, also in upper case. -/
theorem value_symbol : ∀ n, n < 16 →
    value (symbol n) = some n ∧ value (symbol n).toUpper = some n := by
  decide

/-- A choice of case for every digit still spells the bytes. -/
theorem spells_of_recased (recase : Nat → Char → Char) (bytes : Bytes)
    (keeps : ∀ i c, recase i c = c ∨ recase i c = c.toUpper) :
    Spells ((encode bytes).mapIdx recase) bytes := by
  apply List.ext_getElem
  · simp [encode]
  · intro i bound _
    have inside : i < (nibbles bytes).length := by simpa [encode] using bound
    have small := value_symbol _ (nibbles_lt bytes _ (List.getElem_mem inside))
    simp only [encode, List.getElem_map, List.getElem_mapIdx]
    rcases keeps i (symbol (nibbles bytes)[i]) with same | raised
    · rw [same, small.1]
    · rw [raised, small.2]

/-- What is written spells the bytes. -/
theorem spells_encode (bytes : Bytes) : Spells (encode bytes) bytes := by
  have values : (nibbles bytes).map (value ∘ symbol) = (nibbles bytes).map some :=
    List.map_congr_left fun n member => (value_symbol n (nibbles_lt bytes n member)).1
  rw [Spells, encode, List.map_map, values]

/-- The bytes of a spelling are read. -/
theorem decodePart_of_spells (spells : Spells text bytes) :
    decodePart text = (bytes, true) := by
  induction bytes generalizing text with
  | nil =>
    have empty : text = [] := by simpa [Spells, nibbles] using spells
    rw [empty, decodePart]
  | cons b rest ih =>
    match text, spells with
    | [_], spells => simp [Spells, nibbles] at spells
    | high :: low :: tail, spells =>
      simp only [Spells, nibbles, List.map_cons, List.cons.injEq] at spells
      have whole : UInt8.ofNat (16 * (b.toNat / 16) + b.toNat % 16) = b := by
        rw [Nat.div_add_mod, UInt8.ofNat_toNat]
      rw [decodePart, spells.1, spells.2.1, ih spells.2.2]
      simp only [whole]

/-- A digit is below sixteen. -/
theorem value_lt (digit : value c = some n) : n < 16 := by
  unfold value at digit
  split at digit
  · rename_i range
    have high : c.toNat ≤ 57 := range.2
    have isValue := Option.some.inj digit
    omega
  · split at digit
    · rename_i range
      have high : c.toNat ≤ 102 := range.2
      have isValue := Option.some.inj digit
      omega
    · split at digit
      · rename_i range
        have high : c.toNat ≤ 70 := range.2
        have isValue := Option.some.inj digit
        omega
      · cases digit

/-- A text of digits in pairs is read to its end. -/
theorem decodePart_whole (count : Nat) (pairs : text.length = 2 * count)
    (valued : ∀ c ∈ text, ∃ n, value c = some n) : (decodePart text).2 = true := by
  induction count generalizing text with
  | zero =>
    have empty : text = [] := List.eq_nil_of_length_eq_zero pairs
    rw [empty, decodePart]
  | succ count ih =>
    match text, pairs, valued with
    | [_], pairs, _ =>
      rw [List.length_singleton] at pairs
      omega
    | high :: low :: rest, pairs, valued =>
      have shorter : rest.length = 2 * count := by
        rw [List.length_cons, List.length_cons] at pairs
        omega
      obtain ⟨h, isHigh⟩ := valued high List.mem_cons_self
      obtain ⟨l, isLow⟩ := valued low (List.mem_cons_of_mem _ List.mem_cons_self)
      rw [decodePart, isHigh, isLow]
      exact ih shorter fun c member =>
        valued c (List.mem_cons_of_mem _ (List.mem_cons_of_mem _ member))

/-- A text that is read to its end spells the bytes read. -/
theorem spells_of_decodePart (whole : (decodePart text).2 = true) :
    Spells text (decodePart text).1 := by
  induction text using decodePart.induct with
  | case1 => rfl
  | case2 c => cases whole
  | case3 high low rest h l isLow isHigh bytes read isRest ih =>
    rw [decodePart, isHigh, isLow] at whole ⊢
    have highBound := value_lt isHigh
    have lowBound := value_lt isLow
    have byte : (UInt8.ofNat (16 * h + l)).toNat = 16 * h + l := by
      rw [UInt8.toNat_ofNat']
      omega
    have quotient : (16 * h + l) / 16 = h := by omega
    have remainder : (16 * h + l) % 16 = l := by omega
    have tail := ih whole
    unfold Spells at tail ⊢
    simp only [List.map_cons, nibbles, byte, quotient, remainder, isHigh, isLow, tail]
  | case4 high low rest unread =>
    rw [decodePart] at whole
    split at whole
    · rename_i h l isHigh isLow
      exact (unread h l isHigh isLow).elim
    · cases whole

/-- The digits behind an optional marker. -/
def unmarked (text : List Char) : List Char :=
  match text with
  | '0' :: 'x' :: rest => rest
  | '0' :: 'X' :: rest => rest
  | _ => text

/-- A hexadecimal digit is a printed character of ASCII. -/
theorem range_of_value (digit : value c = some n) : '0' ≤ c ∧ c ≤ 'f' := by
  unfold value at digit
  split at digit
  · rename_i range
    exact ⟨range.1, UInt32.le_trans range.2 (by decide)⟩
  · split at digit
    · rename_i range
      exact ⟨UInt32.le_trans (by decide) range.1, range.2⟩
    · split at digit
      · rename_i range
        exact ⟨UInt32.le_trans (by decide) range.1, UInt32.le_trans range.2 (by decide)⟩
      · cases digit

/-- A hexadecimal digit is one byte long. -/
theorem utf8Size_of_value (digit : value c = some n) : c.utf8Size = 1 := by
  have small : c.val ≤ 127 := UInt32.le_trans (range_of_value digit).2 (by decide)
  simp [Char.utf8Size, small]

/-- A hexadecimal digit is not white space. -/
theorem isSpace_of_value (digit : value c = some n) :
    Strings.isSpace c = false := by
  have solid : ∀ code, code < 103 → 48 ≤ code → Strings.isSpace (Char.ofNat code) = false := by
    decide
  have ⟨low, high⟩ := range_of_value digit
  have below : c.toNat < 103 := Nat.lt_succ_of_le high
  have known := solid c.toNat below low
  rw [Char.ofNat_toNat] at known
  exact known

/-- A spelling has an even number of bytes. -/
theorem byteLength_of_spells (spells : Spells text bytes) :
    Strings.byteLength text = 2 * bytes.length := by
  induction bytes generalizing text with
  | nil =>
    have empty : text = [] := by simpa [Spells, nibbles] using spells
    rw [empty]
    rfl
  | cons b rest ih =>
    match text, spells with
    | [_], spells => simp [Spells, nibbles] at spells
    | high :: low :: tail, spells =>
      simp only [Spells, nibbles, List.map_cons, List.cons.injEq] at spells
      have sizes := ih spells.2.2
      rw [Strings.byteLength, Strings.byteLength, utf8Size_of_value spells.1,
        utf8Size_of_value spells.2.1, sizes, List.length_cons]
      omega

/-- The characters of a spelling are digits. -/
theorem digit_of_spells (spells : Spells text bytes) :
    ∀ c ∈ text, ∃ n, value c = some n := by
  intro c member
  have mapped : value c ∈ (nibbles bytes).map some := spells ▸ List.mem_map_of_mem member
  obtain ⟨n, _, isValue⟩ := List.mem_map.mp mapped
  exact ⟨n, isValue.symm⟩

/-- The case of a digit is ignored. -/
theorem value_lower_ascii : ∀ n, n < 128 → (value (Char.ofNat n)).isSome = true →
    value (LetterCase.lower (Char.ofNat n)) = value (Char.ofNat n) := by
  decide

/-- A digit keeps its value in lower case. -/
theorem value_lower (digit : value c = some n) :
    value (LetterCase.lower c) = some n := by
  have range := range_of_value digit
  have small : c.toNat < 128 := Nat.lt_of_le_of_lt range.2 (by decide)
  have kept := value_lower_ascii c.toNat small (by rw [Char.ofNat_toNat, digit]; rfl)
  rw [Char.ofNat_toNat, digit] at kept
  exact kept

/-- A spelling in lower case spells the same bytes. -/
theorem spells_lower (spells : Spells text bytes) :
    Spells (text.map LetterCase.lower) bytes := by
  have kept : text.map (value ∘ LetterCase.lower) = text.map value := by
    apply List.map_congr_left
    intro c member
    obtain ⟨n, digit⟩ := digit_of_spells spells c member
    rw [Function.comp_apply, value_lower digit, digit]
  rw [Spells, List.map_map, kept]
  exact spells

/-- A byte is two digits. -/
theorem length_nibbles (bytes : Bytes) : (nibbles bytes).length = 2 * bytes.length := by
  induction bytes with
  | nil => rfl
  | cons b rest ih =>
    rw [nibbles, List.length_cons, List.length_cons, ih, List.length_cons]
    omega

/-- A spelling has two digits for each byte. -/
theorem length_of_spells (spells : Spells text bytes) :
    text.length = 2 * bytes.length := by
  have lengths := congrArg List.length spells
  rw [List.length_map, List.length_map, length_nibbles] at lengths
  exact lengths

/-- Reading what was written returns the bytes. -/
@[simp] theorem decode_encode (bytes : Bytes) : decode (encode bytes) = some bytes := by
  rw [decode, decodePart_of_spells (spells_encode bytes)]

end Hex

namespace Hexutil

/-- `hexutil.Encode`, on characters. -/
def encode (bytes : Bytes) : List Char :=
  '0' :: 'x' :: Hex.encode bytes

/-- `hexutil.Decode`, on characters, with the text of its errors. -/
def decode : List Char → Except String Bytes
  | [] => .error "empty hex string"
  | '0' :: marker :: digits =>
    if marker = 'x' ∨ marker = 'X' then
      match Hex.decode digits with
      | some bytes => .ok bytes
      | none =>
        -- `hex.DecodeString` reports a bad digit before an odd length.
        if digits.all (fun c => (Hex.value c).isSome) then .error "hex string of odd length"
        else .error "invalid hex string"
    else .error "hex string without 0x prefix"
  | _ => .error "hex string without 0x prefix"

/-- Reading what was written returns the bytes. -/
@[simp] theorem decode_encode (bytes : Bytes) : decode (encode bytes) = .ok bytes := by
  simp [decode, encode]

/-- What is read is a marked spelling of the bytes. -/
theorem spells_of_decode (read : decode text = .ok bytes) :
    ∃ digits, (text = '0' :: 'x' :: digits ∨ text = '0' :: 'X' :: digits) ∧
      Hex.Spells digits bytes := by
  unfold decode at read
  split at read
  · cases read
  · rename_i marker digits
    by_cases isMarker : marker = 'x' ∨ marker = 'X'
    · rw [if_pos isMarker] at read
      have marked : '0' :: marker :: digits = '0' :: 'x' :: digits ∨
          '0' :: marker :: digits = '0' :: 'X' :: digits := by
        rcases isMarker with lower | upper
        · exact .inl (by rw [lower])
        · exact .inr (by rw [upper])
      refine ⟨digits, marked, ?_⟩
      cases found : Hex.decodePart digits with
      | mk part whole =>
        cases whole with
        | false =>
          simp only [Hex.decode, found] at read
          split at read <;> cases read
        | true =>
          simp only [Hex.decode, found] at read
          have spells := Hex.spells_of_decodePart (show (Hex.decodePart digits).2 = true by
            rw [found])
          rw [found, Except.ok.inj read] at spells
          exact spells
    · rw [if_neg isMarker] at read
      cases read
  · cases read

end Hexutil

/-- `common.FromHex`, on characters: an optional marker, a leading zero for an odd length, and
the bytes read before the first bad digit. -/
def fromHex (text : List Char) : Bytes :=
  let digits := match text with
    | '0' :: 'x' :: rest => rest
    | '0' :: 'X' :: rest => rest
    | _ => text
  let digits := if Strings.byteLength digits % 2 = 1 then '0' :: digits else digits
  (Hex.decodePart digits).1

/-- A marked spelling of a byte string is read back. -/
theorem fromHex_of_spells {digits : List Char} (spells : Hex.Spells digits bytes) :
    fromHex ('0' :: 'x' :: digits) = bytes := by
  have even : Strings.byteLength digits % 2 ≠ 1 := by
    rw [Hex.byteLength_of_spells spells]
    omega
  simp only [fromHex, if_neg even, Hex.decodePart_of_spells spells]

end SvpMcp
