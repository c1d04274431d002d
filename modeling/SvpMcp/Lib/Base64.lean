import Mathlib.Data.List.Basic

/-!
# Base64

The standard encoding with padding, as `encoding/base64` reads and writes it.
-/

namespace SvpMcp

/-- A byte string. -/
abbrev Bytes := List UInt8

namespace Base64

/-- The character of a six-bit value. -/
def symbol (n : Nat) : Char :=
  if n < 26 then Char.ofNat (65 + n)
  else if n < 52 then Char.ofNat (71 + n)
  else if n < 62 then Char.ofNat (n - 4)
  else if n = 62 then '+'
  else '/'

/-- The six-bit value of a character. -/
def value (c : Char) : Option Nat :=
  if 'A' ≤ c ∧ c ≤ 'Z' then some (c.toNat - 65)
  else if 'a' ≤ c ∧ c ≤ 'z' then some (c.toNat - 71)
  else if '0' ≤ c ∧ c ≤ '9' then some (c.toNat + 4)
  else if c = '+' then some 62
  else if c = '/' then some 63
  else none

/-- Every character of the alphabet has its value, is not the padding and is kept. -/
theorem value_symbol : ∀ n, n < 64 →
    value (symbol n) = some n ∧ symbol n ≠ '=' ∧ symbol n ≠ '\n' ∧ symbol n ≠ '\r' := by
  decide

/-- `StdEncoding.EncodeToString`, on characters. -/
def encode : Bytes → List Char
  | [] => []
  | [x] =>
    let v := x.toNat * 16
    [symbol (v / 64), symbol (v % 64), '=', '=']
  | [x, y] =>
    let v := (x.toNat * 256 + y.toNat) * 4
    [symbol (v / 4096), symbol (v / 64 % 64), symbol (v % 64), '=']
  | x :: y :: z :: rest =>
    let v := (x.toNat * 256 + y.toNat) * 256 + z.toNat
    symbol (v / 262144) :: symbol (v / 4096 % 64) :: symbol (v / 64 % 64) :: symbol (v % 64) ::
      encode rest

/-- Read groups of four characters; only the last group may be padded. -/
def decodeGroups : List Char → Option Bytes
  | [] => some []
  | [a, b, '=', '='] => do
    let a ← value a
    let b ← value b
    return [UInt8.ofNat ((a * 64 + b) / 16)]
  | [a, b, c, '='] => do
    let a ← value a
    let b ← value b
    let c ← value c
    let v := ((a * 64 + b) * 64 + c) / 4
    return [UInt8.ofNat (v / 256), UInt8.ofNat (v % 256)]
  | a :: b :: c :: d :: rest => do
    let a ← value a
    let b ← value b
    let c ← value c
    let d ← value d
    let v := ((a * 64 + b) * 64 + c) * 64 + d
    let tail ← decodeGroups rest
    return UInt8.ofNat (v / 65536) :: UInt8.ofNat (v / 256 % 256) :: UInt8.ofNat (v % 256) :: tail
  | _ => none

/-- A line break, which the reader skips. -/
def isLineBreak (c : Char) : Bool := c = '\n' || c = '\r'

/-- `StdEncoding.DecodeString`, on characters. -/
def decode (text : List Char) : Option Bytes :=
  decodeGroups (text.filter fun c => !isLineBreak c)

/-- A byte is recovered from any number that has its value. -/
theorem ofNat_of_toNat {n : Nat} {x : UInt8} (same : n = x.toNat) : UInt8.ofNat n = x := by
  rw [same, UInt8.ofNat_toNat]

/-- Written groups are read back. -/
theorem decodeGroups_encode (bytes : Bytes) : decodeGroups (encode bytes) = some bytes := by
  induction bytes using encode.induct with
  | case1 => rfl
  | case2 x =>
    have bound := x.toNat_lt
    have first := value_symbol (x.toNat * 16 / 64) (by omega)
    have second := value_symbol (x.toNat * 16 % 64) (by omega)
    simp only [encode, decodeGroups, first.1, second.1, Option.bind_eq_bind, Option.bind_some,
      Option.pure_def]
    rw [ofNat_of_toNat (x := x) (by omega)]
  | case3 x y =>
    have xBound := x.toNat_lt
    have yBound := y.toNat_lt
    have first := value_symbol ((x.toNat * 256 + y.toNat) * 4 / 4096) (by omega)
    have second := value_symbol ((x.toNat * 256 + y.toNat) * 4 / 64 % 64) (by omega)
    have third := value_symbol ((x.toNat * 256 + y.toNat) * 4 % 64) (by omega)
    simp only [encode]
    rw [decodeGroups]
    · simp only [first.1, second.1, third.1, Option.bind_eq_bind, Option.bind_some,
        Option.pure_def]
      rw [ofNat_of_toNat (x := x) (by omega), ofNat_of_toNat (x := y) (by omega)]
    · exact third.2.1
  | case4 x y z rest ih =>
    have xBound := x.toNat_lt
    have yBound := y.toNat_lt
    have zBound := z.toNat_lt
    have first := value_symbol (((x.toNat * 256 + y.toNat) * 256 + z.toNat) / 262144) (by omega)
    have second := value_symbol (((x.toNat * 256 + y.toNat) * 256 + z.toNat) / 4096 % 64)
      (by omega)
    have third := value_symbol (((x.toNat * 256 + y.toNat) * 256 + z.toNat) / 64 % 64) (by omega)
    have fourth := value_symbol (((x.toNat * 256 + y.toNat) * 256 + z.toNat) % 64) (by omega)
    simp only [encode]
    rw [decodeGroups]
    · simp only [first.1, second.1, third.1, fourth.1, ih, Option.bind_eq_bind, Option.bind_some,
        Option.pure_def]
      rw [ofNat_of_toNat (x := x) (by omega), ofNat_of_toNat (x := y) (by omega),
        ofNat_of_toNat (x := z) (by omega)]
    · intro _ padded
      exact absurd padded fourth.2.1
    · intro padded
      exact absurd padded fourth.2.1

/-- The writer produces no line breaks. -/
theorem encode_no_lineBreak (bytes : Bytes) : (encode bytes).all fun c => !isLineBreak c := by
  have kept : ∀ n, n < 64 → isLineBreak (symbol n) = false := by
    intro n small
    have distinct := value_symbol n small
    simp [isLineBreak, distinct.2.2.1, distinct.2.2.2]
  induction bytes using encode.induct with
  | case1 => rfl
  | case2 x =>
    have bound := x.toNat_lt
    simp only [encode, List.all_cons, kept (x.toNat * 16 / 64) (by omega),
      kept (x.toNat * 16 % 64) (by omega)]
    decide
  | case3 x y =>
    have xBound := x.toNat_lt
    have yBound := y.toNat_lt
    simp only [encode, List.all_cons, kept ((x.toNat * 256 + y.toNat) * 4 / 4096) (by omega),
      kept ((x.toNat * 256 + y.toNat) * 4 / 64 % 64) (by omega),
      kept ((x.toNat * 256 + y.toNat) * 4 % 64) (by omega)]
    decide
  | case4 x y z rest ih =>
    have xBound := x.toNat_lt
    have yBound := y.toNat_lt
    have zBound := z.toNat_lt
    simp only [encode, List.all_cons,
      kept (((x.toNat * 256 + y.toNat) * 256 + z.toNat) / 262144) (by omega),
      kept (((x.toNat * 256 + y.toNat) * 256 + z.toNat) / 4096 % 64) (by omega),
      kept (((x.toNat * 256 + y.toNat) * 256 + z.toNat) / 64 % 64) (by omega),
      kept (((x.toNat * 256 + y.toNat) * 256 + z.toNat) % 64) (by omega)]
    simpa using ih

/-- Reading written text returns the bytes. -/
@[simp] theorem decode_encode (bytes : Bytes) : decode (encode bytes) = some bytes := by
  have unfiltered : (encode bytes).filter (fun c => !isLineBreak c) = encode bytes := by
    rw [List.filter_eq_self]
    exact List.all_eq_true.mp (encode_no_lineBreak bytes)
  rw [decode, unfiltered, decodeGroups_encode]

end Base64

end SvpMcp
