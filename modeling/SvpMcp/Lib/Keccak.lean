import SvpMcp.Lib.Abi

/-!
# Keccak-256

The hash behind method selectors and address checksums. Lanes are numbers below `2 ^ 64`,
lane `5 * y + x` holding column `x` of row `y`.
-/

namespace SvpMcp

namespace Keccak

/-- Continue with the value of a number, so that evaluation computes it once. -/
def force {α : Type} (n : Nat) (next : Nat → α) : α :=
  match n with
  | 0 => next 0
  | m + 1 => next (m + 1)

/-- Continue with the values of all lanes. -/
def forceAll {α : Type} : List Nat → (List Nat → α) → α
  | [], next => next []
  | n :: rest, next => force n fun n => forceAll rest fun rest => next (n :: rest)

/-- Rotate a lane to the left. -/
def rotate (lane count : Nat) : Nat :=
  ((lane <<< count) ||| (lane >>> (64 - count))) % 2 ^ 64

variable (state : List Nat)

/-- The lane at a position. -/
def lane (i : Nat) : Nat := state.getD i 0

/-- The parity of a column. -/
def parity (x : Nat) : Nat :=
  lane state x ^^^ lane state (x + 5) ^^^ lane state (x + 10) ^^^ lane state (x + 15) ^^^
    lane state (x + 20)

/-- The step θ: mix every lane with the parities of two columns. -/
def theta (state parities : List Nat) : List Nat :=
  (List.range 25).map fun i =>
    lane state i ^^^ (lane parities ((i + 4) % 5) ^^^ rotate (lane parities ((i + 1) % 5)) 1)

/-- The rotation of every lane in the step ρ. -/
def offsets : List Nat :=
  [0, 1, 62, 28, 27, 36, 44, 6, 55, 20, 3, 10, 43, 25, 39, 41, 45, 15, 21, 8, 18, 2, 61, 56, 14]

/-- The lane that the step π moves to a position. -/
def source (i : Nat) : Nat :=
  let x := i % 5
  let y := i / 5
  5 * x + (x + 3 * y) % 5

/-- The steps ρ and π. -/
def rhoPi : List Nat :=
  (List.range 25).map fun i => rotate (lane state (source i)) (lane offsets (source i))

/-- The step χ: combine each lane with the next two of its row. -/
def chi : List Nat :=
  (List.range 25).map fun i =>
    let row := i / 5 * 5
    lane state i ^^^
      ((2 ^ 64 - 1 - lane state (row + (i + 1) % 5)) &&& lane state (row + (i + 2) % 5))

/-- The step ι: mix the round constant into the first lane. -/
def iota (constant : Nat) : List Nat → List Nat
  | [] => []
  | first :: rest => (first ^^^ constant) :: rest

/-- One round, followed by the rest of the computation. -/
def round {α : Type} (state : List Nat) (constant : Nat) (next : List Nat → α) : α :=
  forceAll ((List.range 5).map (parity state)) fun parities =>
    forceAll (theta state parities) fun mixed =>
      forceAll (rhoPi mixed) fun moved =>
        forceAll (iota constant (chi moved)) next

/-- The constants of the 24 rounds. -/
def roundConstants : List Nat :=
  [0x0000000000000001, 0x0000000000008082, 0x800000000000808a, 0x8000000080008000,
   0x000000000000808b, 0x0000000080000001, 0x8000000080008081, 0x8000000000008009,
   0x000000000000008a, 0x0000000000000088, 0x0000000080008009, 0x000000008000000a,
   0x000000008000808b, 0x800000000000008b, 0x8000000000008089, 0x8000000000008003,
   0x8000000000008002, 0x8000000000000080, 0x000000000000800a, 0x800000008000000a,
   0x8000000080008081, 0x8000000000008080, 0x0000000080000001, 0x8000000080008008]

/-- Rounds with the given constants. -/
def rounds : List Nat → List Nat → List Nat
  | [], state => state
  | constant :: rest, state => round state constant (rounds rest)

/-- The permutation Keccak-f[1600]. -/
def permute : List Nat :=
  rounds roundConstants state

/-- A lane from eight bytes, least significant first. -/
def readLane (bytes : Bytes) : Nat :=
  bytes.foldr (fun b n => b.toNat + 256 * n) 0

/-- The bytes of a lane, least significant first. -/
def writeLane (lane : Nat) : Bytes :=
  (BigEndian.write 8 lane).reverse

/-- Bytes absorbed by each permutation. -/
def rate : Nat := 136

/-- The original Keccak padding: a one bit, zeros and a last one bit. -/
def pad (message : Bytes) : Bytes :=
  let room := rate - message.length % rate
  if room = 1 then message ++ [0x81]
  else message ++ 0x01 :: (List.replicate (room - 2) 0 ++ [0x80])

/-- Mix one block into the state. -/
def absorbBlock (block : Bytes) : List Nat :=
  (List.range 25).map fun i =>
    if i < rate / 8 then lane state i ^^^ readLane ((block.drop (8 * i)).take 8)
    else lane state i

/-- Absorb the blocks of a padded message. -/
def absorb : Nat → List Nat → Bytes → List Nat
  | 0, state, _ => state
  | blocks + 1, state, message =>
    forceAll (absorbBlock state (message.take rate)) fun state =>
      absorb blocks (permute state) (message.drop rate)

/-- `crypto.Keccak256`. -/
def hash (message : Bytes) : Bytes :=
  let padded := pad message
  let state := absorb (padded.length / rate) (List.replicate 25 0) padded
  (state.take 4).flatMap writeLane

end Keccak

/-- The bytes of an ASCII text. -/
def asciiBytes (text : String) : Bytes :=
  text.toList.map fun c => UInt8.ofNat c.toNat

namespace Abi

/-- The selector of a method: the first four bytes of the hash of its signature. -/
def selector (signature : String) : Bytes :=
  (Keccak.hash (asciiBytes signature)).take 4

end Abi

namespace Address

/-- The spelling of one digit of an address under the checksum: a letter is raised when the
digit of the hash at its place is above seven. -/
def checksumDigit (hash : List Nat) (i : Nat) (c : Char) : Char :=
  if '9' < c ∧ 7 < hash.getD i 0 then c.toUpper else c

/-- `Address.Hex` — the marked and checksummed spelling of an address. -/
def hex (a : Address) : String :=
  let digits := Hex.encode a.bytes
  let hash := Hex.nibbles (Keccak.hash (digits.map fun c => UInt8.ofNat c.toNat))
  String.ofList ('0' :: 'x' :: digits.mapIdx (checksumDigit hash))

/-- The checksummed spelling is a marker and the digits of the bytes. -/
theorem hex_spells (a : Address) :
    ∃ digits, a.hex.toList = '0' :: 'x' :: digits ∧ Hex.Spells digits a.bytes := by
  refine ⟨_, String.toList_ofList, Hex.spells_of_recased _ a.bytes ?_⟩
  intro i c
  unfold checksumDigit
  split
  · exact .inr rfl
  · exact .inl rfl

/-- The checksummed spelling is read back as the address. -/
@[simp] theorem ofHex_hex (a : Address) : ofHex a.hex = a := by
  obtain ⟨digits, isHex, spells⟩ := hex_spells a
  rw [ofHex, isHex, fromHex_of_spells spells, ofBytes_bytes]

/-- The text gives the address. -/
theorem hex_inj {a b : Address} (same : a.hex = b.hex) : a = b := by
  rw [← ofHex_hex a, same, ofHex_hex]

/-- In lower case too. -/
theorem ofHex_toLower_hex (a : Address) : ofHex (Strings.toLower a.hex) = a := by
  obtain ⟨digits, isHex, spells⟩ := hex_spells a
  have lowered : (Strings.toLower a.hex).toList = '0' :: 'x' :: digits.map LetterCase.lower := by
    rw [Strings.toLower, String.toList_ofList, isHex]
    rfl
  rw [ofHex, lowered, fromHex_of_spells (Hex.spells_lower spells), ofBytes_bytes]

/-- So does the text in lower case. -/
theorem toLower_hex_inj {a b : Address} (same : Strings.toLower a.hex = Strings.toLower b.hex) :
    a = b := by
  rw [← ofHex_toLower_hex a, same, ofHex_toLower_hex]

/-- The checksummed spelling is accepted as an address. -/
theorem isHex_hex (a : Address) : isHex a.hex.toList = true := by
  obtain ⟨digits, marked, spells⟩ := hex_spells a
  have size : digits.length = 40 := by rw [Hex.length_of_spells spells, a.length_eq]
  have valued : digits.all (fun c => (Hex.value c).isSome) = true := by
    rw [List.all_eq_true]
    intro c member
    obtain ⟨n, isValue⟩ := Hex.digit_of_spells spells c member
    rw [isValue]
    rfl
  rw [marked]
  simp only [isHex, size, valued, decide_true, Bool.and_self]

/-- There is no white space around the checksummed spelling. -/
theorem trimSpace_hex (a : Address) : Strings.trimSpace a.hex.toList = a.hex.toList := by
  obtain ⟨digits, marked, spells⟩ := hex_spells a
  apply Strings.trimSpace_of_solid
  rw [marked]
  intro c member
  rcases List.mem_cons.mp member with zero | member
  · rw [zero]
    decide
  · rcases List.mem_cons.mp member with marker | digit
    · rw [marker]
      decide
    · obtain ⟨n, isValue⟩ := Hex.digit_of_spells spells c digit
      exact Hex.isSpace_of_value isValue

end Address

end SvpMcp
