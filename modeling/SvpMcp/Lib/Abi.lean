import Mathlib.Algebra.Order.Ring.Nat
import Mathlib.Tactic.NormNum
import SvpMcp.Lib.Hex

/-!
# Addresses and call data of the Ethereum virtual machine

An address carries the proof of its length. Arguments of a contract call are 32-byte words
behind a 4-byte selector; the lemmas say what a reader finds at word boundaries.
-/

namespace SvpMcp

namespace BigEndian

/-- The number a byte string denotes, most significant byte first (`big.Int.SetBytes`). -/
def read (bytes : Bytes) : Nat :=
  bytes.foldl (fun n b => n * 256 + b.toNat) 0

/-- The lowest bytes of a number, most significant first. -/
def write : Nat → Nat → Bytes
  | 0, _ => []
  | width + 1, n => write width (n / 256) ++ [UInt8.ofNat n]

/-- A number is written at its width. -/
@[simp] theorem length_write (width n : Nat) : (write width n).length = width := by
  induction width generalizing n with
  | zero => rfl
  | succ width ih => rw [write, List.length_append, ih, List.length_singleton]

/-- Reading what was written returns the number, up to the width. -/
theorem read_write (width n : Nat) : read (write width n) = n % 256 ^ width := by
  induction width generalizing n with
  | zero =>
    rw [pow_zero, Nat.mod_one]
    rfl
  | succ width ih =>
    have shorter : read (write width (n / 256)) = n / 256 % 256 ^ width := ih (n / 256)
    have last : read (write (width + 1) n) = read (write width (n / 256)) * 256 + n % 256 := by
      rw [write, read, List.foldl_append]
      simp [read]
    rw [last, shorter, pow_succ, Nat.mul_comm (256 ^ width) 256, Nat.mod_mul]
    omega

/-- A number is below the bound its bytes give. -/
theorem read_lt (bytes : Bytes) : read bytes < 256 ^ bytes.length := by
  have general : ∀ n : Nat, bytes.foldl (fun n b => n * 256 + b.toNat) n <
      (n + 1) * 256 ^ bytes.length := by
    induction bytes with
    | nil =>
      intro n
      simp
    | cons b rest ih =>
      intro n
      have byte : b.toNat < 256 := b.toNat_lt
      have step : n * 256 + b.toNat + 1 ≤ (n + 1) * 256 := by omega
      calc rest.foldl (fun n b => n * 256 + b.toNat) (n * 256 + b.toNat)
          < (n * 256 + b.toNat + 1) * 256 ^ rest.length := ih _
        _ ≤ (n + 1) * 256 * 256 ^ rest.length := Nat.mul_le_mul_right _ step
        _ = (n + 1) * 256 ^ (rest.length + 1) := by rw [pow_succ', Nat.mul_assoc]
  have start := general 0
  rwa [Nat.zero_add, Nat.one_mul] at start

end BigEndian

/-- A 20-byte account address (`common.Address`). -/
structure Address where
  bytes : Bytes
  /-- There are twenty of them. -/
  length_eq : bytes.length = 20
deriving DecidableEq

namespace Address

/-- Addresses with the same bytes are one. -/
@[ext] theorem ext {a b : Address} (same : a.bytes = b.bytes) : a = b := by
  cases a
  cases b
  cases same
  rfl

/-- `common.BytesToAddress` — the last twenty bytes, padded with zeros on the left. -/
def ofBytes (bytes : Bytes) : Address where
  bytes := List.replicate (20 - bytes.length) 0 ++ bytes.drop (bytes.length - 20)
  length_eq := by
    rw [List.length_append, List.length_replicate, List.length_drop]
    omega

/-- The zero address. -/
def zero : Address := ofBytes []

/-- `common.HexToAddress`. -/
def ofHex (text : String) : Address :=
  ofBytes (fromHex text.toList)

/-- `common.IsHexAddress` — forty digits behind an optional marker. -/
def isHex (text : List Char) : Bool :=
  let digits := match text with
    | '0' :: 'x' :: rest => rest
    | '0' :: 'X' :: rest => rest
    | _ => text
  digits.length = 40 && digits.all fun c => (Hex.value c).isSome

/-- Twenty bytes are kept as they are. -/
@[simp] theorem ofBytes_bytes (a : Address) : ofBytes a.bytes = a := by
  apply ext
  simp [ofBytes, a.length_eq]

/-- A mark in front does not count. -/
theorem isHex_unmarked (text : List Char) : isHex text =
    (decide ((Hex.unmarked text).length = 40) &&
      (Hex.unmarked text).all fun c => (Hex.value c).isSome) := rfl

/-- An address in hexadecimal is twenty spelled bytes, and they are the ones read. -/
theorem isHex_iff_spells (text : String) :
    isHex text.toList = true ↔ Hex.Spells (Hex.unmarked text.toList) (ofHex text).bytes := by
  rw [isHex_unmarked, Bool.and_eq_true, decide_eq_true_iff, List.all_eq_true]
  constructor
  · intro ⟨size, digits⟩
    have valued : ∀ c ∈ Hex.unmarked text.toList, ∃ n, Hex.value c = some n := fun c member =>
      Option.isSome_iff_exists.mp (digits c member)
    have spells := Hex.spells_of_decodePart
      (Hex.decodePart_whole 20 (by omega) valued)
    have length := Hex.length_of_spells spells
    have even : Strings.byteLength (Hex.unmarked text.toList) % 2 ≠ 1 := by
      rw [Hex.byteLength_of_spells spells]
      omega
    have read : fromHex text.toList = (Hex.decodePart (Hex.unmarked text.toList)).1 := by
      change (Hex.decodePart (if Strings.byteLength (Hex.unmarked text.toList) % 2 = 1 then
        '0' :: Hex.unmarked text.toList else Hex.unmarked text.toList)).1 = _
      rw [if_neg even]
    have twenty : (Hex.decodePart (Hex.unmarked text.toList)).1.length = 20 := by omega
    have kept : (ofHex text).bytes = (Hex.decodePart (Hex.unmarked text.toList)).1 := by
      rw [ofHex, read]
      exact congrArg Address.bytes (ofBytes_bytes ⟨_, twenty⟩)
    rw [kept]
    exact spells
  · intro spells
    have length := Hex.length_of_spells spells
    rw [(ofHex text).length_eq] at length
    refine ⟨length, fun c member => ?_⟩
    exact Option.isSome_iff_exists.mpr (Hex.digit_of_spells spells c member)

end Address

namespace Abi

/-- A number as a 32-byte word. -/
def word (n : Nat) : Bytes :=
  BigEndian.write 32 n

/-- An address as a 32-byte word: twelve zero bytes, then the address. -/
def addressWord (a : Address) : Bytes :=
  List.replicate 12 0 ++ a.bytes

/-- A word has 32 bytes. -/
@[simp] theorem length_word (n : Nat) : (word n).length = 32 :=
  BigEndian.length_write 32 n

/-- An address fills a word. -/
@[simp] theorem length_addressWord (a : Address) : (addressWord a).length = 32 := by
  rw [addressWord, List.length_append, List.length_replicate, a.length_eq]

/-- A word is read back when the number fits. -/
theorem read_word {n : Nat} (fits : n < 2 ^ 256) : BigEndian.read (word n) = n := by
  rw [word, BigEndian.read_write]
  exact Nat.mod_eq_of_lt (by norm_num at fits ⊢; exact fits)

/-- The address of an address word. -/
theorem drop_addressWord (a : Address) : (addressWord a).drop 12 = a.bytes := by
  simp [addressWord]

/-- The word gives the address. -/
theorem addressWord_inj {a b : Address} (same : addressWord a = addressWord b) : a = b := by
  apply Address.ext
  rw [← drop_addressWord, same, drop_addressWord]

end Abi

end SvpMcp
