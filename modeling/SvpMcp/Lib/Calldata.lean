import SvpMcp.Lib.Keccak

/-!
# Packing and unpacking of contract calls

The contract ABI of `go-ethereum` for the types the server's contracts use. A negative number
is refused; `tryPack` is for arguments that may have one.
-/

namespace SvpMcp

namespace Abi

/-- An argument of a call. -/
inductive Arg where
  /-- `uint64` and `uint256`; a number that is too large is reduced. -/
  | uint (n : Int)
  | address (a : Address)
  | addresses (path : List Address)
deriving DecidableEq

/-- What an argument adds behind the heads. -/
def Arg.tail : Arg → Bytes
  | .uint _ => []
  | .address _ => []
  | .addresses path => word path.length ++ path.flatMap addressWord

variable (data : Bytes) (offset : Nat)

/-- The head of an argument, given the offset of its tail. -/
def Arg.head : Arg → Bytes
  | .uint n => word (n % 2 ^ 256).toNat
  | .address a => addressWord a
  | .addresses _ => word offset

/-- The heads of the arguments, given the offset of the first tail. -/
def heads : Nat → List Arg → Bytes
  | _, [] => []
  | offset, arg :: rest => arg.head offset ++ heads (offset + arg.tail.length) rest

/-- The call of the method with a signature, for arguments that `ABI.Pack` accepts. -/
def pack (signature : String) (args : List Arg) : Bytes :=
  selector signature ++ (heads (32 * args.length) args ++ args.flatMap Arg.tail)

/-- A number must not be negative. -/
def Arg.accepted : Arg → Bool
  | .uint n => 0 ≤ n
  | _ => true

/-- `ABI.Pack` — the call, or the error of a negative number. -/
def tryPack (signature : String) (args : List Arg) : Except String Bytes :=
  if args.all Arg.accepted then .ok (pack signature args)
  else .error "abi: negatively-signed value cannot be packed into uint parameter"

/-- What is made of a packed call, if its arguments are accepted. -/
theorem map_tryPack_eq_ok {β : Type} {signature : String} {args : List Arg} {f : Bytes → β}
    {result : β} : (tryPack signature args).map f = .ok result ↔
      args.all Arg.accepted = true ∧ result = f (pack signature args) := by
  unfold tryPack
  by_cases accepted : args.all Arg.accepted = true
  · rw [if_pos accepted]
    constructor
    · intro isResult
      exact ⟨accepted, (Except.ok.inj isResult).symm⟩
    · rintro ⟨_, rfl⟩
      rfl
  · rw [if_neg accepted]
    exact iff_of_false error_ne_ok fun isResult => accepted isResult.1

/-- An argument takes one word in front. -/
@[simp] theorem length_head (arg : Arg) : (arg.head offset).length = 32 := by
  cases arg with
  | uint n => exact length_word _
  | address a => exact length_addressWord a
  | addresses path => exact length_word _

variable (args : List Arg)

/-- The words in front, one an argument. -/
@[simp] theorem length_heads : (heads offset args).length = 32 * args.length := by
  induction args generalizing offset with
  | nil => rfl
  | cons arg rest ih =>
    rw [heads, List.length_append, ih, length_head, List.length_cons]
    omega

section Packed

variable {signature : String} {sel : Bytes} {args : List Arg}

/-- A packed call starts with its selector. -/
theorem take_pack (isSelector : selector signature = sel) (short : sel.length = 4) :
    (pack signature args).take 4 = sel := by
  rw [pack, isSelector, List.take_left' short]

/-- No argument is left out. -/
theorem length_pack_ge (args : List Arg) (isSelector : selector signature = sel)
    (short : sel.length = 4) :
    4 + 32 * args.length ≤ (pack signature args).length := by
  simp only [pack, List.length_append, length_heads, isSelector, short]
  omega

end Packed

/-- `ABI.Unpack` of a `uint256`. -/
def unpackUint : Option Nat :=
  if data.length < 32 then none else some (BigEndian.read (data.take 32))

/-- A word is unpacked to its number. -/
theorem unpackUint_word {n : Nat} (fits : n < 2 ^ 256) : unpackUint (word n) = some n := by
  have whole : (word n).take 32 = word n := List.take_of_length_le (Nat.le_of_eq (length_word n))
  rw [unpackUint, length_word, if_neg (Nat.lt_irrefl 32), whole, read_word fits]

/-- `ABI.Unpack` of a `uint8`. -/
def unpackUint8 : Option Nat :=
  match unpackUint data with
  | some n => if n < 256 then some n else none
  | none => none

/-- `ABI.Unpack` of an `address` — the last twenty bytes of the word. -/
def unpackAddress : Option Address :=
  if data.length < 32 then none else some (.ofBytes (data.take 32))

/-- `ABI.Unpack` of a `bool`, which is nothing but 0 or 1. -/
def unpackBool : Option Bool :=
  match unpackUint data with
  | some 0 => some false
  | some 1 => some true
  | _ => none

/-- The number an `int256` word denotes. -/
def signedWord (n : Nat) : Int := (n : Int).bmod (2 ^ 256)

/-- The words of a byte string, up to a count. -/
def readWords : Nat → Bytes → List Nat
  | 0, _ => []
  | count + 1, data => BigEndian.read (data.take 32) :: readWords count (data.drop 32)

/-- A word is below 2²⁵⁶. -/
theorem read_take_lt : BigEndian.read (data.take 32) < 2 ^ 256 := by
  have bound := BigEndian.read_lt (data.take 32)
  have short : (data.take 32).length ≤ 32 := List.length_take_le 32 data
  have powers : 256 ^ (data.take 32).length ≤ 256 ^ 32 := Nat.pow_le_pow_right (by decide) short
  exact Nat.lt_of_lt_of_le bound powers

/-- A word read is a `uint256`. -/
theorem readWords_lt {count n : Nat} {data : Bytes} (member : n ∈ readWords count data) :
    n < 2 ^ 256 := by
  induction count generalizing data with
  | zero => cases member
  | succ count ih =>
    rcases List.mem_cons.mp member with isFirst | later
    · rw [isFirst]
      exact read_take_lt data
    · exact ih later

/-- `ABI.Unpack` of a `uint256[]`. -/
def unpackUints : Option (List Nat) :=
  match unpackUint data with
  | none => none
  | some offset =>
    if data.length < offset + 32 then none
    else
      let count := BigEndian.read ((data.drop offset).take 32)
      let elements := data.drop (offset + 32)
      if elements.length < 32 * count then none else some (readWords count elements)

/-- Numbers unpacked are `uint256`. -/
theorem unpackUints_lt {data : Bytes} {words : List Nat}
    (isUnpacked : unpackUints data = some words)
    {n : Nat} (member : n ∈ words) : n < 2 ^ 256 := by
  unfold unpackUints at isUnpacked
  cases first : unpackUint data with
  | none =>
    rw [first] at isUnpacked
    cases isUnpacked
  | some offset =>
    simp only [first] at isUnpacked
    split at isUnpacked
    · cases isUnpacked
    · split at isUnpacked
      · cases isUnpacked
      · cases isUnpacked
        exact readWords_lt member

/-- `ABI.Unpack` of a `string`, as its bytes. -/
def unpackString : Option Bytes :=
  match unpackUint data with
  | none => none
  | some offset =>
    if data.length < offset + 32 then none
    else
      let length := BigEndian.read ((data.drop offset).take 32)
      let content := data.drop (offset + 32)
      if content.length < length then none else some (content.take length)

end Abi

end SvpMcp
