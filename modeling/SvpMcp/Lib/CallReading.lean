import SvpMcp.Lib.Calldata

/-!
# Reading a packed call back

What was packed is read back at its head, or at the offset its head holds, when the call is
shorter than a word can count.
-/

namespace SvpMcp

namespace Abi

/-- The word of a call at an argument's place. -/
def wordAt (data : Bytes) (i : Nat) : Bytes := (data.drop (4 + 32 * i)).take 32

/-- The number at an argument's place. -/
def uintAt (data : Bytes) (i : Nat) : Nat := BigEndian.read (wordAt data i)

/-- The address at an argument's place. -/
def addressAt (data : Bytes) (i : Nat) : Address := .ofBytes (wordAt data i)

/-- The addresses of a byte string, up to a count. -/
def readAddresses : Nat → Bytes → List Address
  | 0, _ => []
  | count + 1, data => .ofBytes (data.take 32) :: readAddresses count (data.drop 32)

/-- The addresses of an argument, behind the heads. -/
def addressesAt (data : Bytes) (i : Nat) : List Address :=
  let behind := data.drop (4 + uintAt data i)
  readAddresses (BigEndian.read (behind.take 32)) (behind.drop 32)

/-- The bytes behind the heads before an argument's own. -/
def tailsBefore (args : List Arg) (i : Nat) : Bytes := (args.take i).flatMap Arg.tail

/-- The word of the heads at an argument's place, with the offset of its tail. -/
theorem heads_offset {args : List Arg} {i : Nat} {arg : Arg} (place : args[i]? = some arg)
    (offset : Nat) (behind : Bytes) :
    ((heads offset args ++ behind).drop (32 * i)).take 32 =
      arg.head (offset + (tailsBefore args i).length) := by
  induction args generalizing offset i with
  | nil => cases place
  | cons first rest ih =>
    rw [heads, List.append_assoc]
    cases i with
    | zero =>
      have here : first = arg := Option.some.inj place
      simp [← here, tailsBefore]
    | succ i =>
      have next : 32 * (i + 1) = 32 + 32 * i := by omega
      have skip : ((first.head offset ++ (heads (offset + first.tail.length) rest ++ behind)).drop
          32) = heads (offset + first.tail.length) rest ++ behind := by
        rw [List.drop_left' (length_head offset first)]
      have before : (tailsBefore (first :: rest) (i + 1)).length =
          first.tail.length + (tailsBefore rest i).length := by
        simp [tailsBefore]
      rw [next, ← List.drop_drop, skip, ih place, before, Nat.add_assoc]

/-- The tails behind an argument's offset start with its own. -/
theorem tails_offset {args : List Arg} {i : Nat} {arg : Arg} (place : args[i]? = some arg) :
    ∃ rest, (args.flatMap Arg.tail).drop (tailsBefore args i).length = arg.tail ++ rest := by
  obtain ⟨inside, isArg⟩ := List.getElem?_eq_some_iff.mp place
  have cut : args = args.take i ++ arg :: args.drop (i + 1) := by
    rw [← isArg, List.getElem_cons_drop, List.take_append_drop]
  refine ⟨(args.drop (i + 1)).flatMap Arg.tail, ?_⟩
  have split : args.flatMap Arg.tail =
      tailsBefore args i ++ (arg.tail ++ (args.drop (i + 1)).flatMap Arg.tail) := by
    conv_lhs => rw [cut]
    rw [List.flatMap_append, List.flatMap_cons]
    rfl
  rw [split, List.drop_left]

/-- The words of a path. -/
theorem length_words (path : List Address) :
    (path.flatMap addressWord).length = 32 * path.length := by
  induction path with
  | nil => rfl
  | cons a path ih =>
    rw [List.flatMap_cons, List.length_append, length_addressWord, ih, List.length_cons]
    omega

/-- A path is read back. -/
theorem readAddresses_words (path : List Address) (rest : Bytes) :
    readAddresses path.length (path.flatMap addressWord ++ rest) = path := by
  induction path with
  | nil => rfl
  | cons a path ih =>
    have whole : Address.ofBytes (addressWord a) = a := by
      apply Address.ext
      simp [Address.ofBytes, addressWord, a.length_eq]
    have first := length_addressWord a
    rw [List.length_cons, List.flatMap_cons, List.append_assoc, readAddresses,
      List.take_left' first, List.drop_left' first, whole, ih]

section Packed

variable {signature : String} {sel : Bytes} {args : List Arg} {i : Nat}

/-- The words in front are the arguments. -/
theorem wordAt_pack {arg : Arg} (isSelector : selector signature = sel) (short : sel.length = 4)
    (place : args[i]? = some arg) : wordAt (pack signature args) i =
      arg.head (32 * args.length + (tailsBefore args i).length) := by
  rw [wordAt, pack, isSelector, ← List.drop_drop, List.drop_left' short]
  exact heads_offset place _ _

/-- A number is read back as its residue. -/
theorem uintAt_pack {n : Int} (isSelector : selector signature = sel) (short : sel.length = 4)
    (place : args[i]? = some (.uint n)) : (uintAt (pack signature args) i : Int) = n % 2 ^ 256 := by
  have fits : (n % 2 ^ 256).toNat < 2 ^ 256 := by omega
  rw [uintAt, wordAt_pack isSelector short place, Arg.head, read_word fits]
  omega

/-- A number that fits is read back as it is. -/
theorem uintAt_nat {n : Nat} (isSelector : selector signature = sel) (short : sel.length = 4)
    (place : args[i]? = some (.uint n)) (fits : n < 2 ^ 256) :
    uintAt (pack signature args) i = n := by
  have read := uintAt_pack isSelector short place
  omega

/-- An address is read back. -/
theorem addressAt_pack {a : Address} (isSelector : selector signature = sel)
    (short : sel.length = 4) (place : args[i]? = some (.address a)) :
    addressAt (pack signature args) i = a := by
  rw [addressAt, wordAt_pack isSelector short place, Arg.head]
  apply Address.ext
  simp [Address.ofBytes, addressWord, a.length_eq]

/-- The length of a packed call. -/
theorem length_pack (args : List Arg) (isSelector : selector signature = sel)
    (short : sel.length = 4) :
    (pack signature args).length = 4 + (32 * args.length + (args.flatMap Arg.tail).length) := by
  rw [pack, isSelector, List.length_append, List.length_append, short, length_heads]

/-- An array argument is read back. -/
theorem addressesAt_pack {path : List Address} (isSelector : selector signature = sel)
    (short : sel.length = 4) (place : args[i]? = some (.addresses path))
    (countable : (pack signature args).length < 2 ^ 256) :
    addressesAt (pack signature args) i = path := by
  obtain ⟨rest, isTail⟩ := tails_offset place
  have size := length_pack args isSelector short
  -- The offset and the count are both within the call.
  have inside : (tailsBefore args i).length + (32 + 32 * path.length) ≤
      (args.flatMap Arg.tail).length := by
    have lengths := congrArg List.length isTail
    rw [List.length_drop, List.length_append, Arg.tail, List.length_append, length_word,
      length_words] at lengths
    omega
  have isOffset : uintAt (pack signature args) i =
      32 * args.length + (tailsBefore args i).length := by
    rw [uintAt, wordAt_pack isSelector short place, Arg.head, read_word (by omega)]
  have behind : (pack signature args).drop (4 + uintAt (pack signature args) i) =
      word path.length ++ (path.flatMap addressWord ++ rest) := by
    rw [isOffset, pack, isSelector, ← List.drop_drop, List.drop_left' short, ← List.drop_drop,
      List.drop_left' (length_heads _ args), isTail, Arg.tail, List.append_assoc]
  rw [addressesAt, behind, List.take_left' (length_word _), List.drop_left' (length_word _),
    read_word (by omega), readAddresses_words]

end Packed

end Abi

end SvpMcp
