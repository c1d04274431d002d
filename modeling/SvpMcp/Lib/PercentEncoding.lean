import SvpMcp.Lib.Hex

/-!
# Percent-encoded paths

The escaping of a URL's path as `net/url` does it, on bytes. A path is sent as it is written if
that is a valid escaping, and is escaped anew otherwise.
-/

namespace SvpMcp

namespace Utf8

/-- The bytes of a text. -/
def encode (text : List Char) : Bytes := text.flatMap String.utf8EncodeChar

/-- Texts are encoded piece by piece. -/
@[simp] theorem encode_append (left right : List Char) :
    encode (left ++ right) = encode left ++ encode right := List.flatMap_append

/-- The bytes give the text. -/
theorem encode_inj {left right : List Char} (same : encode left = encode right) : left = right := by
  have arrays : left.utf8Encode = right.utf8Encode := by
    rw [List.utf8Encode, List.utf8Encode]
    exact congrArg List.toByteArray same
  have decoded := congrArg ByteArray.utf8Decode? arrays
  rw [List.utf8Decode?_utf8Encode, List.utf8Decode?_utf8Encode] at decoded
  exact congrArg Array.toList (Option.some.inj decoded)

/-- A byte of ASCII stands for its character only. -/
theorem mem_utf8EncodeChar {c x : Char} (ascii : c.toNat < 128) :
    UInt8.ofNat c.toNat ∈ String.utf8EncodeChar x ↔ x = c := by
  have byte : (UInt8.ofNat c.toNat).toNat = c.toNat := by
    rw [UInt8.toNat_ofNat']
    omega
  constructor
  · intro member
    have isCode : x.val.toNat = x.toNat := rfl
    have codes : x.toNat = c.toNat := by
      -- The bytes of a character outside of ASCII are 128 and above.
      unfold String.utf8EncodeChar at member
      simp only [isCode] at member
      repeat' split at member
      all_goals
        simp only [List.mem_cons, List.not_mem_nil, or_false, ← UInt8.toNat_inj, byte,
          UInt8.toNat_ofNat'] at member
        omega
    rw [← Char.ofNat_toNat x, codes, Char.ofNat_toNat]
  · intro same
    have small : c.val.toNat ≤ 127 := Nat.le_of_lt_succ ascii
    rw [same, String.utf8EncodeChar, if_pos small]
    exact List.mem_singleton.mpr rfl

/-- ASCII characters stand for themselves. -/
theorem mem_encode {c : Char} {text : List Char} (ascii : c.toNat < 128) :
    UInt8.ofNat c.toNat ∈ encode text ↔ c ∈ text := by
  rw [encode, List.mem_flatMap]
  constructor
  · intro ⟨x, member, isByte⟩
    exact (mem_utf8EncodeChar ascii).mp isByte ▸ member
  · intro member
    exact ⟨c, member, (mem_utf8EncodeChar ascii).mpr rfl⟩

end Utf8

namespace Url

/-- The byte `%`. -/
def percent : UInt8 := 0x25

/-- The byte `/`. -/
def slash : UInt8 := 0x2f

variable (path : Bytes) (b : UInt8)

/-- The value of a hexadecimal digit. -/
def hexValue : Option Nat := Hex.value (Char.ofNat b.toNat)

/-- The hexadecimal digit of a value, in upper case. -/
def upperHex (n : Nat) : UInt8 := if n < 10 then UInt8.ofNat (48 + n) else UInt8.ofNat (55 + n)

/-- `unescape` of a path or a fragment. -/
def unescape : Bytes → Option Bytes
  | [] => some []
  | b :: rest =>
    if b ≠ percent then (unescape rest).map (b :: ·)
    else
      match rest with
      | high :: low :: tail =>
        match hexValue high, hexValue low with
        | some h, some l => (unescape tail).map (UInt8.ofNat (16 * h + l) :: ·)
        | _, _ => none
      | _ => none

/-- Whether a byte is a letter or a digit of ASCII. -/
def isAlphanumeric : Bool :=
  (97 ≤ b && b ≤ 122) || (65 ≤ b && b ≤ 90) || (48 ≤ b && b ≤ 57)

/-- `shouldEscape` of a path: everything but letters, digits and `-_.~$&+,/:;=@`. -/
def shouldEscape : Bool :=
  !(isAlphanumeric b || [0x2d, 0x5f, 0x2e, 0x7e, 0x24, 0x26, 0x2b, 0x2c, 0x2f, 0x3a, 0x3b, 0x3d,
    0x40].contains b)

/-- The spelling of a byte in a path. -/
def escapeByte : Bytes :=
  if shouldEscape b then [percent, upperHex (b.toNat / 16), upperHex (b.toNat % 16)] else [b]

/-- `escape` of a path. -/
def escape : Bytes := path.flatMap escapeByte

/-- `validEncoded` of a path: also `!'()*[]` and `%` are left alone. -/
def validEncoded : Bool :=
  path.all fun b => !shouldEscape b || [0x21, 0x27, 0x28, 0x29, 0x2a, 0x5b, 0x5d, 0x25].contains b

/-- A plain byte is kept. -/
theorem unescape_cons {b : UInt8} (plain : b ≠ percent) (rest : Bytes) :
    unescape (b :: rest) = (unescape rest).map (b :: ·) := by
  conv_lhs => unfold unescape
  exact if_pos plain

/-- An escape is read as its byte. -/
theorem unescape_escaped {high low : UInt8} {h l : Nat} (isHigh : hexValue high = some h)
    (isLow : hexValue low = some l) (tail : Bytes) :
    unescape (percent :: high :: low :: tail) =
      (unescape tail).map (UInt8.ofNat (16 * h + l) :: ·) := by
  rw [unescape, if_neg (not_not.mpr rfl)]
  simp only [isHigh, isLow]

/-- An escape without digits is refused. -/
theorem unescape_unread {high low : UInt8} (tail : Bytes)
    (unread : ∀ h l, hexValue high = some h → hexValue low = some l → False) :
    unescape (percent :: high :: low :: tail) = none := by
  rw [unescape, if_neg (not_not.mpr rfl)]
  cases isHigh : hexValue high with
  | none => rfl
  | some h =>
    cases isLow : hexValue low with
    | none => rfl
    | some l => exact (unread h l isHigh isLow).elim

/-- Without a percent sign nothing is read differently. -/
theorem unescape_plain {path : Bytes} (plain : percent ∉ path) : unescape path = some path := by
  induction path with
  | nil => rfl
  | cons b rest ih =>
    rw [List.mem_cons, not_or] at plain
    rw [unescape_cons (Ne.symm plain.1), ih plain.2, Option.map_some]

/-- What holds of every path that can be read: one case for a byte, one for an escape. -/
theorem unescape_induction {P : Bytes → Bytes → Prop} (nil : P [] [])
    (plain : ∀ b rest tail, b ≠ percent → P rest tail → P (b :: rest) (b :: tail))
    (escaped : ∀ high low h l rest tail, hexValue high = some h → hexValue low = some l →
      P rest tail → P (percent :: high :: low :: rest) (UInt8.ofNat (16 * h + l) :: tail))
    {path read : Bytes} (isRead : unescape path = some read) : P path read := by
  induction path using unescape.induct generalizing read with
  | case1 => exact Option.some.inj isRead ▸ nil
  | case2 b rest other ih =>
    rw [unescape_cons other] at isRead
    obtain ⟨tail, isTail, rfl⟩ := Option.map_eq_some_iff.mp isRead
    exact plain b rest tail other (ih isTail)
  | case3 b isEscape high low tail h l isLow isHigh ih =>
    rw [not_not.mp isEscape, unescape_escaped isHigh isLow] at isRead
    obtain ⟨rest, isRest, rfl⟩ := Option.map_eq_some_iff.mp isRead
    rw [not_not.mp isEscape]
    exact escaped high low h l tail rest isHigh isLow (ih isRest)
  | case4 b isEscape high low tail unread =>
    rw [not_not.mp isEscape, unescape_unread tail unread] at isRead
    cases isRead
  | case5 b rest isEscape short =>
    rw [unescape, if_neg isEscape] at isRead
    · cases isRead
    · exact short

/-- Reading never adds bytes, and drops some where there is a percent sign. -/
theorem length_unescape {path read : Bytes} (isRead : unescape path = some read) :
    read.length ≤ path.length ∧ (percent ∈ path → read.length < path.length) := by
  refine unescape_induction (P := fun path read =>
    read.length ≤ path.length ∧ (percent ∈ path → read.length < path.length)) ?_ ?_ ?_ isRead
  · exact ⟨Nat.le_refl _, fun member => absurd member List.not_mem_nil⟩
  · intro b rest tail other ⟨atMost, fewer⟩
    rw [List.length_cons, List.length_cons]
    refine ⟨by omega, fun member => ?_⟩
    have shorter := fewer ((List.mem_cons.mp member).resolve_left (Ne.symm other))
    omega
  · intro high low h l rest tail _ _ ⟨atMost, _⟩
    rw [List.length_cons, List.length_cons, List.length_cons, List.length_cons]
    exact ⟨by omega, fun _ => by omega⟩

/-- A slash separates what is read before it from what is read behind it. -/
theorem unescape_slash (before behind : Bytes) :
    unescape (before ++ slash :: behind) =
      (unescape before).bind fun x => (unescape behind).map fun y => x ++ slash :: y := by
  have noDigit : hexValue slash = none := by decide
  induction before using unescape.induct with
  | case1 =>
    rw [List.nil_append, unescape_cons (by decide)]
    rfl
  | case2 b rest plain ih =>
    rw [List.cons_append, unescape_cons plain, unescape_cons plain, ih]
    cases unescape rest with
    | none => rfl
    | some x =>
      cases unescape behind with
      | none => rfl
      | some y => rfl
  | case3 b escaped high low tail h l isLow isHigh ih =>
    have isPercent : b = percent := not_not.mp escaped
    rw [isPercent, List.cons_append, List.cons_append, List.cons_append,
      unescape_escaped isHigh isLow, unescape_escaped isHigh isLow, ih]
    cases unescape tail with
    | none => rfl
    | some x =>
      cases unescape behind with
      | none => rfl
      | some y => rfl
  | case4 b escaped high low tail unread =>
    have isPercent : b = percent := not_not.mp escaped
    rw [isPercent, List.cons_append, List.cons_append, List.cons_append,
      unescape_unread _ unread, unescape_unread _ unread, Option.bind_none]
  | case5 b rest escaped short =>
    have isPercent : b = percent := not_not.mp escaped
    subst isPercent
    -- An escape that is cut short runs into the slash, which is no digit.
    match rest, short with
    | [], _ =>
      cases behind with
      | nil => rfl
      | cons low tail =>
        refine (unescape_unread tail fun h l isHigh _ => ?_).trans rfl
        rw [noDigit] at isHigh
        cases isHigh
    | [high], _ =>
      refine (unescape_unread behind fun h l _ isLow => ?_).trans rfl
      rw [noDigit] at isLow
      cases isLow
    | high :: low :: tail, short => exact (short high low tail rfl).elim

/-- A digit written is read back. -/
theorem hexValue_upperHex : ∀ n, n < 16 → hexValue (upperHex n) = some n := by
  decide

/-- A digit is no slash. -/
theorem upperHex_ne_slash : ∀ n, n < 16 → upperHex n ≠ slash := by
  decide

/-- An escaped byte is read back. -/
theorem unescape_escapeByte (rest : Bytes) :
    unescape (escapeByte b ++ rest) = (unescape rest).map (b :: ·) := by
  have bound := b.toNat_lt
  unfold escapeByte
  by_cases escaped : shouldEscape b = true
  · have whole : UInt8.ofNat (16 * (b.toNat / 16) + b.toNat % 16) = b := by
      rw [Nat.div_add_mod, UInt8.ofNat_toNat]
    rw [if_pos escaped]
    change unescape (percent :: upperHex (b.toNat / 16) :: upperHex (b.toNat % 16) :: rest) = _
    rw [unescape_escaped (hexValue_upperHex _ (by omega)) (hexValue_upperHex _ (by omega)), whole]
  · have plain : b ≠ percent := by
      rintro rfl
      exact escaped (by decide)
    rw [if_neg escaped]
    exact unescape_cons plain rest

/-- Reading what was escaped returns it. -/
@[simp] theorem unescape_escape : unescape (escape path) = some path := by
  induction path with
  | nil => rfl
  | cons b rest ih =>
    rw [escape, List.flatMap_cons, unescape_escapeByte]
    change (unescape (escape rest)).map (b :: ·) = some (b :: rest)
    rw [ih, Option.map_some]

/-- A slash is not escaped. -/
theorem escape_slash (before behind : Bytes) :
    escape (before ++ slash :: behind) = escape before ++ slash :: escape behind := by
  rw [escape, List.flatMap_append, List.flatMap_cons]
  rfl

/-- Escaping keeps the slashes. -/
theorem count_escape : (escape path).count slash = path.count slash := by
  induction path with
  | nil => rfl
  | cons b rest ih =>
    have bound := b.toNat_lt
    have one : (escapeByte b).count slash = [b].count slash := by
      unfold escapeByte
      split
      · rename_i escaped
        have other : b ≠ slash := fun same => absurd (same ▸ escaped) (by decide)
        have high := upperHex_ne_slash (b.toNat / 16) (by omega)
        have low := upperHex_ne_slash (b.toNat % 16) (by omega)
        have none : slash ∉ [percent, upperHex (b.toNat / 16), upperHex (b.toNat % 16)] := by
          simp only [List.mem_cons, List.not_mem_nil, or_false, not_or]
          exact ⟨by decide, Ne.symm high, Ne.symm low⟩
        rw [List.count_eq_zero.mpr none, List.count_singleton, if_neg (by simpa using other)]
      · rfl
    rw [escape, List.flatMap_cons, List.count_append, one, ← escape, ih, ← List.count_append,
      List.singleton_append]

/-- Reading keeps the slashes, and may add escaped ones. -/
theorem count_unescape {path read : Bytes} (isRead : unescape path = some read) :
    path.count slash ≤ read.count slash := by
  have digit {b : UInt8} {n : Nat} (isDigit : hexValue b = some n) : b ≠ slash := by
    rintro rfl
    exact absurd (show hexValue slash = none by decide) (by rw [isDigit]; exact nofun)
  refine unescape_induction (P := fun path read => path.count slash ≤ read.count slash)
    (Nat.le_refl _) ?_ ?_ isRead
  · intro b rest tail _ fewer
    rw [List.count_cons, List.count_cons]
    omega
  · intro high low h l rest tail isHigh isLow fewer
    rw [List.count_cons_of_ne (by decide), List.count_cons_of_ne (digit isHigh),
      List.count_cons_of_ne (digit isLow), List.count_cons]
    omega

/-- A path has one last slash. -/
theorem directory_unique {before before' behind behind' : Bytes} (last : slash ∉ behind)
    (last' : slash ∉ behind') (same : before ++ slash :: behind = before' ++ slash :: behind') :
    before = before' := by
  rcases List.append_eq_append_iff.mp same with ⟨mid, isFront, rest⟩ | ⟨mid, isFront, rest⟩
  · cases mid with
    | nil => rw [isFront, List.append_nil]
    | cons b mid =>
      rw [(List.cons.inj rest).2] at last
      exact absurd (List.mem_append_right _ List.mem_cons_self) last
  · cases mid with
    | nil => rw [isFront, List.append_nil]
    | cons b mid =>
      rw [(List.cons.inj rest).2] at last'
      exact absurd (List.mem_append_right _ List.mem_cons_self) last'

/-- The path that is sent for a text: the text, or the escaping of what it is read as if the text
is not valid. -/
def sent (text read : Bytes) : Bytes := if validEncoded text then text else escape read

/-- What is sent is read back. -/
theorem unescape_sent {text read : Bytes} (isRead : unescape text = some read) :
    unescape (sent text read) = some read := by
  unfold sent
  split
  · exact isRead
  · exact unescape_escape read

section Sent

variable {front name read : Bytes}

/-- A directory and a name behind it are read apart. -/
theorem unescape_slash_ok (isRead : unescape (front ++ slash :: name) = some read) :
    ∃ dir found, unescape front = some dir ∧ unescape name = some found ∧
      read = dir ++ slash :: found := by
  rw [unescape_slash] at isRead
  obtain ⟨dir, isDir, isRead⟩ := Option.bind_eq_some_iff.mp isRead
  obtain ⟨found, isFound, same⟩ := Option.map_eq_some_iff.mp isRead
  exact ⟨dir, found, isDir, isFound, same.symm⟩

/-- A path is sent as its directory and one segment that is read as an argument. -/
def SentAs (front name read argument : Bytes) : Prop :=
  ∃ seg, sent (front ++ slash :: name) read = front ++ slash :: seg ∧ slash ∉ seg ∧
    unescape seg = some argument

/-- A name that is sent as an argument is that argument, without escapes. -/
theorem name_of_sent {argument : Bytes} (isRead : unescape (front ++ slash :: name) = some read)
    (shorter : name = argument ∨ name.length < argument.length)
    (isSent : SentAs front name read argument) : name = argument ∧ percent ∉ argument := by
  obtain ⟨seg, isSeg, _, isArgument⟩ := isSent
  obtain ⟨dir, found, isDir, isFound, parts⟩ := unescape_slash_ok isRead
  have whole := unescape_sent isRead
  rw [isSeg, unescape_slash, isDir, isArgument, parts] at whole
  have same : argument = found :=
    (List.cons.inj (List.append_cancel_left (Option.some.inj whole))).2
  obtain ⟨atMost, fewer⟩ := length_unescape isFound
  rw [← same] at atMost fewer
  rcases shorter with isName | short
  · refine ⟨isName, fun escaped => ?_⟩
    have short := fewer (isName ▸ escaped)
    rw [isName] at short
    exact absurd short (Nat.lt_irrefl _)
  · omega

/-- A path is sent as its directory and an argument exactly if the argument holds neither a slash
nor an escape, and the path is a valid escaping or the directory is escaped by default. -/
theorem sentAs_iff (argument : Bytes) (isRead : unescape (front ++ slash :: name) = some read)
    (shorter : name = argument ∨ name.length < argument.length) :
    SentAs front name read argument ↔ name = argument ∧ slash ∉ argument ∧ percent ∉ argument ∧
      (validEncoded (front ++ slash :: argument) = true ∨
        ∀ dir, unescape front = some dir → escape dir = front) := by
  obtain ⟨dir, found, isDir, isFound, parts⟩ := unescape_slash_ok isRead
  constructor
  · intro isSent
    obtain ⟨isName, plain⟩ := name_of_sent isRead shorter isSent
    obtain ⟨seg, isSeg, oneSegment, isArgument⟩ := isSent
    rw [isName] at isSeg isFound
    have same : found = argument := Option.some.inj (isFound.symm.trans (unescape_plain plain))
    unfold sent at isSeg
    by_cases valid : validEncoded (front ++ slash :: argument) = true
    · rw [if_pos valid] at isSeg
      have isArg : argument = seg := (List.cons.inj (List.append_cancel_left isSeg)).2
      exact ⟨isName, isArg ▸ oneSegment, plain, .inl valid⟩
    · rw [if_neg valid, parts, same, escape_slash] at isSeg
      -- The argument has no slash: the directory would have one less than it is read with.
      have counts := congrArg (List.count slash) isSeg
      have fewer := count_unescape isDir
      rw [List.count_append, List.count_append, List.count_cons_self, List.count_cons_self,
        count_escape, count_escape, List.count_eq_zero.mpr oneSegment] at counts
      have none : slash ∉ argument := List.count_eq_zero.mp (by omega)
      have noneEscaped : slash ∉ escape argument := by
        rw [← List.count_eq_zero, count_escape]
        exact List.count_eq_zero.mpr none
      refine ⟨isName, none, plain, .inr fun dir' isDir' => ?_⟩
      rw [← Option.some.inj (isDir.symm.trans isDir')]
      exact directory_unique noneEscaped oneSegment isSeg
  · intro ⟨isName, oneSegment, plain, kept⟩
    have same : found = argument := by
      rw [isName, unescape_plain plain] at isFound
      exact (Option.some.inj isFound).symm
    unfold SentAs sent
    rw [isName]
    by_cases valid : validEncoded (front ++ slash :: argument) = true
    · rw [if_pos valid]
      exact ⟨argument, rfl, oneSegment, unescape_plain plain⟩
    · refine ⟨escape argument, ?_, ?_, unescape_escape argument⟩
      · rw [if_neg valid, parts, same, escape_slash, kept.resolve_left valid dir isDir]
      · rw [← List.count_eq_zero, count_escape]
        exact List.count_eq_zero.mpr oneSegment

end Sent

end Url

end SvpMcp
