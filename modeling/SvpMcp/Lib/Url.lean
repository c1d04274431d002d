import Mathlib.Data.List.Sort
import SvpMcp.Lib.PercentEncoding

/-!
# URLs

`url.Parse` of `net/url`, on bytes, and the path and query a request is sent with. The fragment
is cut off first, then the query.
-/

namespace SvpMcp

variable {separator : UInt8} {hostOk : Bytes → Bool} {before : Bytes}

namespace Url

/-- The byte `?`. -/
def question : UInt8 := 0x3f

/-- The byte `#`. -/
def hash : UInt8 := 0x23

/-- The byte `:`. -/
def colon : UInt8 := 0x3a

/-- `url.URL`; the user and the host are kept unread. -/
structure URL where
  scheme : Bytes := []
  /-- `Opaque`, of a URL without a path. -/
  rootless : Bytes := []
  /-- `User` and `Host`. -/
  authority : Bytes := []
  /-- `Path`, unescaped. -/
  path : Bytes := []
  /-- `RawPath`, if it is not the default escaping of the path. -/
  rawPath : Bytes := []
  omitHost : Bool := false
  /-- `ForceQuery`: there is a query, and it is empty. -/
  forceQuery : Bool := false
  rawQuery : Bytes := []
  /-- `Fragment`, unescaped. -/
  fragment : Bytes := []
deriving DecidableEq

/-- Why a text is no URL. -/
inductive ParseFault where
  | control
  | noScheme
  | colonInSegment
  | authority
  | escape
deriving DecidableEq, Repr

/-- `strings.Cut` at a byte. -/
def cut (separator : UInt8) (text : Bytes) : Bytes × Bytes :=
  (text.takeWhile (· ≠ separator), (text.dropWhile (· ≠ separator)).tail)

variable (b : UInt8)

/-- `stringContainsCTLByte`, for a byte. -/
def isControl : Bool := b < 0x20 || b == 0x7f

/-- Whether a byte is a letter of ASCII. -/
def isLetter : Bool := (97 ≤ b && b ≤ 122) || (65 ≤ b && b ≤ 90)

/-- Whether a byte can stand in a scheme behind its first letter: a digit or one of `+-.`. -/
def continuesScheme : Bool := (48 ≤ b && b ≤ 57) || [0x2b, 0x2d, 0x2e].contains b

/-- The loop of `getScheme`, behind the bytes it has read. -/
def scanScheme (read : Bytes) : Bytes → Except ParseFault (Option (Bytes × Bytes))
  | [] => .ok none
  | b :: rest =>
    if isLetter b then scanScheme (read ++ [b]) rest
    else if continuesScheme b then
      if read = [] then .ok none else scanScheme (read ++ [b]) rest
    else if b = colon then if read = [] then .error .noScheme else .ok (some (read, rest))
    else .ok none

/-- `getScheme`. -/
def getScheme (raw : Bytes) : Except ParseFault (Bytes × Bytes) := do
  let found ← scanScheme [] raw
  return found.getD ([], raw)

/-- `strings.ToLower` of a byte of ASCII. -/
def lowerByte : UInt8 := if 65 ≤ b && b ≤ 90 then b + 32 else b

/-- The query is cut off: the text before it, the query, and whether it is empty but there. -/
def splitQuery (rest : Bytes) : Bytes × Bytes × Bool :=
  if rest.getLast? = some question ∧ rest.count question = 1 then (rest.dropLast, [], true)
  else ((cut question rest).1, (cut question rest).2, false)

variable (base : Base) (u : URL)

/-- `setPath`. -/
def URL.setPath (p : Bytes) : Except ParseFault URL :=
  match unescape p with
  | none => .error .escape
  | some path => .ok { u with path, rawPath := if escape path = p then [] else p }

/-- The host and the path of a URL whose query is cut off. The host is read by other code. -/
def URL.setHierarchy (hostOk : Bytes → Bool) (u : URL) (rest : Bytes) : Except ParseFault URL :=
  if (u.scheme ≠ [] ∨ rest.take 3 ≠ [slash, slash, slash]) ∧ rest.take 2 = [slash, slash] then
    let authority := (rest.drop 2).takeWhile (· ≠ slash)
    if hostOk authority then
      { u with authority }.setPath ((rest.drop 2).dropWhile (· ≠ slash))
    else .error .authority
  else { u with omitHost := u.scheme ≠ [] ∧ rest.head? = some slash }.setPath rest

/-- The rest of `parse`, behind the scheme and without the query. -/
def setRest (hostOk : Bytes → Bool) (scheme rest rawQuery : Bytes) (forceQuery : Bool) :
    Except ParseFault URL :=
  let u : URL := { scheme := scheme.map lowerByte, rawQuery, forceQuery }
  if rest.head? = some slash then u.setHierarchy hostOk rest
  else if scheme ≠ [] then .ok { u with rootless := rest }
  else if colon ∈ rest.takeWhile (· ≠ slash) then .error .colonInSegment
  else u.setHierarchy hostOk rest

/-- `parse`, for a text without a fragment. -/
def parseBefore (hostOk : Bytes → Bool) (raw : Bytes) : Except ParseFault URL := do
  refuseIf (raw.any isControl) .control
  -- The text `*` is a path.
  if raw = [0x2a] then return { path := raw }
  else
    let named ← getScheme raw
    let parts := splitQuery named.2
    setRest hostOk named.1 parts.1 parts.2.1 parts.2.2

/-- `setFragment`; an empty text is no fragment. -/
def URL.setFragment (frag : Bytes) : Except ParseFault URL :=
  match unescape frag with
  | none => .error .escape
  | some fragment => .ok { u with fragment }

/-- `url.Parse`. -/
def parse (hostOk : Bytes → Bool) (raw : Bytes) : Except ParseFault URL := do
  let u ← parseBefore hostOk (cut hash raw).1
  u.setFragment (cut hash raw).2

/-- `URL.EscapedPath`; the path `*` stays as it is. -/
def URL.escapedPath : Bytes :=
  if u.rawPath ≠ [] ∧ validEncoded u.rawPath ∧ unescape u.rawPath = some u.path then u.rawPath
  else if u.path = [0x2a] then u.path
  else escape u.path

/-- `URL.RequestURI`. -/
def URL.requestURI : Bytes :=
  let result :=
    if u.rootless = [] then (if u.escapedPath = [] then [slash] else u.escapedPath)
    else if u.rootless.take 2 = [slash, slash] then u.scheme ++ colon :: u.rootless
    else u.rootless
  if u.forceQuery ∨ u.rawQuery ≠ [] then result ++ question :: u.rawQuery else result

/-- `url.QueryEscape`. -/
def queryEscape (text : Bytes) : Bytes :=
  text.flatMap fun b =>
    if isAlphanumeric b || [0x2d, 0x5f, 0x2e, 0x7e].contains b then [b]
    -- A blank is written as a plus sign.
    else if b = 0x20 then [0x2b]
    else [percent, upperHex (b.toNat / 16), upperHex (b.toNat % 16)]

/-- `Values.Encode` of parameters that are set once each: sorted by key, `&` between them. -/
def encodeQuery (query : List (String × String)) : Bytes :=
  [(0x26 : UInt8)].intercalate ((query.insertionSort fun left right => left.1 ≤ right.1).map
    fun (key, value) => queryEscape (Utf8.encode key.toList) ++
      0x3d :: queryEscape (Utf8.encode value.toList))

/-- A text without the separator is taken. -/
theorem takeWhile_absent (absent : separator ∉ before) (behind : Bytes) :
    (before ++ behind).takeWhile (· ≠ separator) =
      before ++ behind.takeWhile (· ≠ separator) := by
  apply List.takeWhile_append_of_pos
  intro b member
  exact decide_eq_true fun same => absent (same ▸ member)

/-- And it is dropped. -/
theorem dropWhile_absent (absent : separator ∉ before) (behind : Bytes) :
    (before ++ behind).dropWhile (· ≠ separator) =
      behind.dropWhile (· ≠ separator) := by
  apply List.dropWhile_append_of_pos
  intro b member
  exact decide_eq_true fun same => absent (same ▸ member)

/-- A text is cut within a part that holds the separator. -/
theorem length_takeWhile_present (present : separator ∈ before) (behind : Bytes) :
    ((before ++ behind).takeWhile (· ≠ separator)).length < before.length := by
  obtain ⟨first, last, isBefore, absent⟩ := List.eq_append_cons_of_mem present
  have stops : (separator :: (last ++ behind)).takeWhile (· ≠ separator) = [] :=
    List.takeWhile_cons_of_neg (by simp)
  rw [isBefore, List.append_assoc, List.cons_append, takeWhile_absent absent, stops,
    List.append_nil, List.length_append, List.length_cons]
  omega

/-- Without a separator all is in front. -/
theorem cut_absent {text : Bytes} (absent : separator ∉ text) :
    cut separator text = (text, []) := by
  have whole := takeWhile_absent absent []
  have none := dropWhile_absent absent []
  rw [List.append_nil] at whole none
  rw [cut, whole, none]
  simp

/-- The first separator cuts. -/
theorem cut_present (absent : separator ∉ before) (behind : Bytes) :
    cut separator (before ++ separator :: behind) = (before, behind) := by
  have stops : (separator :: behind).takeWhile (· ≠ separator) = [] :=
    List.takeWhile_cons_of_neg (by simp)
  have rest : (separator :: behind).dropWhile (· ≠ separator) = separator :: behind :=
    List.dropWhile_cons_of_neg (by simp)
  rw [cut, takeWhile_absent absent, dropWhile_absent absent, stops, rest, List.append_nil,
    List.tail_cons]

/-- The part before a query ends at the first question mark. -/
theorem splitQuery_before (rest : Bytes) :
    (splitQuery rest).1 = rest.takeWhile (· ≠ question) := by
  unfold splitQuery
  by_cases only : rest.getLast? = some question ∧ rest.count question = 1
  · rw [if_pos only]
    obtain ⟨front, isRest⟩ := List.getLast?_eq_some_iff.mp only.1
    have once := only.2
    rw [isRest, List.count_append, List.count_singleton_self] at once
    have absent : question ∉ front := List.count_eq_zero.mp (by omega)
    rw [isRest, List.dropLast_concat, takeWhile_absent absent]
    simp
  · rw [if_neg only]
    rfl

/-- A part without question marks stays in front of the query. -/
theorem splitQuery_append {front : Bytes} (plain : question ∉ front) (rest : Bytes) :
    splitQuery (front ++ rest) = (front ++ (splitQuery rest).1, (splitQuery rest).2) := by
  have before := splitQuery_before (front ++ rest)
  rw [takeWhile_absent plain, ← splitQuery_before rest] at before
  have behind : (splitQuery (front ++ rest)).2 = (splitQuery rest).2 := by
    unfold splitQuery
    have counts : (front ++ rest).count question = rest.count question := by
      rw [List.count_append, List.count_eq_zero.mpr plain, Nat.zero_add]
    have queries : (cut question (front ++ rest)).2 = (cut question rest).2 := by
      rw [cut, cut, dropWhile_absent plain]
    by_cases empty : rest = []
    · have lastOther : front.getLast? ≠ some question := fun isLast =>
        plain (List.mem_of_getLast? isLast)
      rw [empty, List.append_nil, if_neg fun only => lastOther only.1, cut_absent plain]
      rfl
    · have last : (front ++ rest).getLast? = rest.getLast? :=
        List.getLast?_append_of_ne_nil front empty
      rw [counts, queries, last]
      split <;> rfl
  rw [← before, ← behind]

/-- No question mark, no query. -/
theorem splitQuery_plain {rest : Bytes} (plain : question ∉ rest) :
    splitQuery rest = (rest, [], false) := by
  have split := splitQuery_append plain []
  rw [List.append_nil] at split
  rw [split]
  exact congrArg (fun front => (front, [], false)) (List.append_nil rest)

/-- A query of its own. -/
theorem splitQuery_query {query : Bytes} (nonempty : query ≠ []) (plain : question ∉ query) :
    splitQuery (question :: query) = ([], query, false) := by
  have lastOther : (question :: query).getLast? ≠ some question := by
    intro isLast
    rw [List.getLast?_cons_of_ne_nil nonempty] at isLast
    exact plain (List.mem_of_getLast? isLast)
  have parts : cut question (question :: query) = ([], query) :=
    cut_present List.not_mem_nil query
  rw [splitQuery, if_neg fun only => lastOther only.1, parts]

/-- A scheme: a letter, then letters, digits and `+-.`. -/
def IsScheme (scheme : Bytes) : Prop :=
  ∃ first rest, scheme = first :: rest ∧ isLetter first = true ∧
    ∀ b ∈ rest, isLetter b = true ∨ continuesScheme b = true

/-- A scheme, a host and a path. -/
structure Base where
  scheme : Bytes
  authority : Bytes
  path : Bytes
  isScheme : IsScheme scheme
  oneAuthority : slash ∉ authority
  rooted : path = [] ∨ path.head? = some slash
  noQuery : question ∉ authority ++ path
  noFragment : hash ∉ authority ++ path

/-- The text of a base. -/
def Base.text : Bytes :=
  base.scheme ++ colon :: slash :: slash :: (base.authority ++ base.path)

/-- The joined path is rooted. -/
theorem Base.rooted_append {dir : Bytes} (rooted : dir.head? = some slash) (rest : Bytes) :
    (base.path ++ (dir ++ rest)).head? = some slash := by
  rcases base.rooted with empty | starts
  · rw [empty, List.nil_append, List.head?_append, rooted]
    rfl
  · rw [List.head?_append, starts]
    rfl

/-- A scheme is read up to its colon. -/
theorem scanScheme_continues {read rest : Bytes} (started : read ≠ [])
    (inside : ∀ b ∈ rest, isLetter b = true ∨ continuesScheme b = true) (behind : Bytes) :
    scanScheme read (rest ++ colon :: behind) = .ok (some (read ++ rest, behind)) := by
  induction rest generalizing read with
  | nil =>
    have letter : isLetter colon = false := by decide
    have other : continuesScheme colon = false := by decide
    rw [List.nil_append, scanScheme, letter, other, if_neg (by decide), if_neg (by decide),
      if_pos rfl, if_neg started, List.append_nil]
  | cons b rest ih =>
    have more : read ++ [b] ≠ [] := List.append_ne_nil_of_right_ne_nil _ (List.cons_ne_nil _ _)
    have next := ih more fun c member => inside c (List.mem_cons_of_mem _ member)
    rw [List.append_assoc, List.singleton_append] at next
    rw [List.cons_append, scanScheme]
    by_cases letter : isLetter b = true
    · rw [if_pos letter, next]
    · have continues := (inside b List.mem_cons_self).resolve_left letter
      rw [if_neg letter, if_pos continues, if_neg started, next]

/-- A scheme is read back. -/
theorem getScheme_of_isScheme {scheme : Bytes} (isScheme : IsScheme scheme) (behind : Bytes) :
    getScheme (scheme ++ colon :: behind) = .ok (scheme, behind) := by
  obtain ⟨first, rest, rfl, letter, inside⟩ := isScheme
  have scanned : scanScheme [] (first :: rest ++ colon :: behind) =
      .ok (some (first :: rest, behind)) := by
    rw [List.cons_append, scanScheme, if_pos letter]
    exact scanScheme_continues (List.cons_ne_nil _ _) inside behind
  rw [getScheme, scanned]
  rfl

/-- A scheme holds neither `?` nor `#`. -/
theorem scheme_plain {scheme : Bytes} (isScheme : IsScheme scheme) {b : UInt8}
    (noLetter : isLetter b = false) (outside : continuesScheme b = false) : b ∉ scheme := by
  obtain ⟨first, rest, rfl, letter, inside⟩ := isScheme
  intro member
  rcases List.mem_cons.mp member with here | behind
  · rw [here, letter] at noLetter
    cases noLetter
  · rcases inside b behind with isLetter | continues
    · rw [isLetter] at noLetter
      cases noLetter
    · rw [continues] at outside
      cases outside

/-- A base has no fragment. -/
theorem hash_notMem_text : hash ∉ base.text := by
  have scheme := scheme_plain base.isScheme (show isLetter hash = false by decide) (by decide)
  rw [Base.text, List.mem_append, not_or]
  refine ⟨scheme, ?_⟩
  simp only [List.mem_cons, not_or]
  exact ⟨by decide, by decide, by decide, base.noFragment⟩

/-- The path of a URL is sent as its text or its escaping. -/
theorem escapedPath_setPath {u v : URL} {p : Bytes} (parsed : u.setPath p = .ok v) :
    ∃ read, unescape p = some read ∧
      v = { u with path := read, rawPath := if escape read = p then [] else p } ∧
      (read ≠ [0x2a] → v.escapedPath = sent p read) := by
  unfold URL.setPath at parsed
  cases isRead : unescape p with
  | none =>
    rw [isRead] at parsed
    cases parsed
  | some read =>
    rw [isRead] at parsed
    refine ⟨read, rfl, (Except.ok.inj parsed).symm, fun other => ?_⟩
    rw [← Except.ok.inj parsed]
    simp only [URL.escapedPath, sent]
    by_cases default : escape read = p
    · rw [if_pos default, if_neg fun both => both.1 rfl, if_neg other, default, ite_self]
    · have nonempty : p ≠ [] := by
        rintro rfl
        rw [← Option.some.inj isRead] at default
        exact default rfl
      rw [if_neg default]
      by_cases valid : validEncoded p = true
      · rw [if_pos ⟨nonempty, valid, isRead⟩, if_pos valid]
      · rw [if_neg fun both => valid both.2.1, if_neg other, if_neg valid]

/-- What a base, a directory and a tail are parsed as. -/
structure ParsedAs (base : Base) (dir tail : Bytes) (u : URL) : Prop where
  scheme : u.scheme = base.scheme.map lowerByte
  authority : u.authority = base.authority
  rootless : u.rootless = []
  query : (u.rawQuery, u.forceQuery) = (splitQuery (cut hash tail).1).2
  fragment : (cut hash tail).2 = [] → u.fragment = []
  path : ∃ read, unescape (base.path ++ (dir ++ (splitQuery (cut hash tail).1).1)) = some read ∧
    u.escapedPath = sent (base.path ++ (dir ++ (splitQuery (cut hash tail).1).1)) read

/-- The host and the path of a text behind its scheme. -/
theorem setHierarchy_ok {u v : URL} {authority path : Bytes} (isAbsolute : u.scheme ≠ [])
    (oneAuthority : slash ∉ authority) (rooted : path.head? = some slash)
    (parsed : u.setHierarchy hostOk (slash :: slash :: (authority ++ path)) = .ok v) :
    { u with authority }.setPath path = .ok v := by
  have stops : path.takeWhile (· ≠ slash) = [] ∧ path.dropWhile (· ≠ slash) = path := by
    cases path with
    | nil => cases rooted
    | cons b rest =>
      have isSlash : b = slash := Option.some.inj rooted
      rw [isSlash]
      exact ⟨List.takeWhile_cons_of_neg (by simp), List.dropWhile_cons_of_neg (by simp)⟩
  have host : (authority ++ path).takeWhile (· ≠ slash) = authority := by
    rw [takeWhile_absent oneAuthority, stops.1, List.append_nil]
  have behind : (authority ++ path).dropWhile (· ≠ slash) = path := by
    rw [dropWhile_absent oneAuthority, stops.2]
  have twice : (slash :: slash :: (authority ++ path)).take 2 = [slash, slash] := rfl
  have body : (slash :: slash :: (authority ++ path)).drop 2 = authority ++ path := rfl
  unfold URL.setHierarchy at parsed
  rw [if_pos ⟨.inl isAbsolute, twice⟩] at parsed
  simp only [body, host, behind] at parsed
  by_cases accepted : hostOk authority = true
  · rw [if_pos accepted] at parsed
    exact parsed
  · rw [if_neg accepted] at parsed
    cases parsed

/-- What is parsed behind a base. -/
theorem parseBefore_ok {base : Base} {dir before : Bytes} {u : URL}
    (rooted : dir.head? = some slash) (plain : question ∉ dir)
    (parsed : parseBefore hostOk (base.text ++ (dir ++ before)) = .ok u) :
    URL.setPath
        { scheme := base.scheme.map lowerByte, authority := base.authority
          rawQuery := (splitQuery before).2.1, forceQuery := (splitQuery before).2.2 }
        (base.path ++ (dir ++ (splitQuery before).1)) = .ok u := by
  obtain ⟨first, rest, isScheme, _⟩ := base.isScheme
  have absolute : base.scheme ≠ [] := by
    rw [isScheme]
    exact List.cons_ne_nil _ _
  have text : base.text ++ (dir ++ before) = base.scheme ++ colon ::
      (slash :: slash :: (base.authority ++ base.path ++ dir) ++ before) := by
    simp [Base.text]
  have noStar : base.text ++ (dir ++ before) ≠ [0x2a] := by
    intro star
    have lengths := congrArg List.length star
    rw [text, isScheme] at lengths
    simp at lengths
  have noQuery : question ∉ slash :: slash :: (base.authority ++ base.path ++ dir) := by
    simp only [List.mem_cons, not_or]
    refine ⟨by decide, by decide, ?_⟩
    rw [List.mem_append, not_or]
    exact ⟨base.noQuery, plain⟩
  obtain ⟨_, _, parsed⟩ := bind_eq_ok.mp parsed
  rw [if_neg noStar] at parsed
  obtain ⟨named, isNamed, parsed⟩ := bind_eq_ok.mp parsed
  rw [text, getScheme_of_isScheme base.isScheme] at isNamed
  cases isNamed
  have path : slash :: slash :: (base.authority ++ base.path ++ dir) ++ (splitQuery before).1 =
      slash :: slash :: (base.authority ++ (base.path ++ (dir ++ (splitQuery before).1))) := by
    simp
  have pathRooted := base.rooted_append rooted (splitQuery before).1
  simp only [splitQuery_append noQuery, path] at parsed
  have relative : base.scheme.map lowerByte ≠ [] := fun none =>
    absolute (List.map_eq_nil_iff.mp none)
  exact setHierarchy_ok relative base.oneAuthority pathRooted parsed

/-- A path that starts with a slash is not read as the path `*`. -/
theorem unescape_rooted {path read : Bytes} (rooted : path.head? = some slash)
    (isRead : unescape path = some read) : read ≠ [0x2a] := by
  cases path with
  | nil => cases rooted
  | cons b rest =>
    have isSlash : b = slash := Option.some.inj rooted
    rw [isSlash, unescape_cons (by decide)] at isRead
    obtain ⟨tail, _, same⟩ := Option.map_eq_some_iff.mp isRead
    rw [← same]
    intro star
    exact absurd (List.cons.inj star).1 (by decide)

/-- A base, a directory and a tail are parsed part by part. -/
theorem parse_ok {base : Base} {dir tail : Bytes} {u : URL} (rooted : dir.head? = some slash)
    (noQuery : question ∉ dir) (noFragment : hash ∉ dir)
    (parsed : parse hostOk (base.text ++ (dir ++ tail)) = .ok u) : ParsedAs base dir tail u := by
  have plain : hash ∉ base.text ++ dir := by
    rw [List.mem_append, not_or]
    exact ⟨hash_notMem_text base, noFragment⟩
  have parts : cut hash (base.text ++ (dir ++ tail)) =
      (base.text ++ (dir ++ (cut hash tail).1), (cut hash tail).2) := by
    rw [← List.append_assoc, cut, takeWhile_absent plain, dropWhile_absent plain, cut,
      List.append_assoc]
  rw [parse, parts] at parsed
  obtain ⟨v, isBefore, parsed⟩ := bind_eq_ok.mp parsed
  obtain ⟨read, isRead, isURL, sent⟩ := escapedPath_setPath (parseBefore_ok rooted noQuery isBefore)
  have pathRooted := base.rooted_append rooted (splitQuery (cut hash tail).1).1
  have isSent := sent (unescape_rooted pathRooted isRead)
  unfold URL.setFragment at parsed
  cases isFragment : unescape (cut hash tail).2 with
  | none =>
    simp only [isFragment] at parsed
    cases parsed
  | some fragment =>
    simp only [isFragment] at parsed
    have isU : { v with fragment } = u := Except.ok.inj parsed
    have escaped : u.escapedPath = v.escapedPath := by rw [← isU]; rfl
    refine ⟨by rw [← isU, isURL], by rw [← isU, isURL], by rw [← isU, isURL],
      by rw [← isU, isURL], fun none => ?_, read, isRead, escaped.trans isSent⟩
    rw [none] at isFragment
    rw [← isU]
    exact (Option.some.inj isFragment).symm

/-- What follows an argument: nothing, or a query. -/
def IsSuffix (suffix query : Bytes) : Prop :=
  (suffix = [] ∧ query = []) ∨
    (suffix = question :: query ∧ query ≠ [] ∧ question ∉ query ∧ hash ∉ query)

/-- A suffix has no fragment. -/
theorem hash_notMem_suffix {suffix query : Bytes} (isSuffix : IsSuffix suffix query) :
    hash ∉ suffix := by
  rcases isSuffix with ⟨none, _⟩ | ⟨some, _, _, plain⟩
  · rw [none]
    exact List.not_mem_nil
  · rw [some, List.mem_cons, not_or]
    exact ⟨by decide, plain⟩

/-- A plain argument is the whole name, and the query behind it is the whole query. -/
theorem tail_plain {argument suffix query : Bytes} (isSuffix : IsSuffix suffix query)
    (noFragment : hash ∉ argument) (noQuery : question ∉ argument) :
    cut hash (argument ++ suffix) = (argument ++ suffix, []) ∧
      splitQuery (argument ++ suffix) = (argument, query, false) := by
  have plain : hash ∉ argument ++ suffix := by
    rw [List.mem_append, not_or]
    exact ⟨noFragment, hash_notMem_suffix isSuffix⟩
  refine ⟨cut_absent plain, ?_⟩
  rw [splitQuery_append noQuery]
  rcases isSuffix with ⟨none, empty⟩ | ⟨some, nonempty, plain, _⟩
  · rw [none, empty, splitQuery_plain List.not_mem_nil, List.append_nil]
  · rw [some, splitQuery_query nonempty plain, List.append_nil]

/-- The name is the argument, or is cut short within it. -/
theorem tail_name (argument : Bytes) {suffix query : Bytes} (isSuffix : IsSuffix suffix query) :
    (hash ∉ argument ∧ question ∉ argument ∧
        (splitQuery (cut hash (argument ++ suffix)).1).1 = argument) ∨
      (splitQuery (cut hash (argument ++ suffix)).1).1.length < argument.length := by
  by_cases fragment : hash ∈ argument
  · right
    have shorter := length_takeWhile_present fragment suffix
    have atMost := (List.takeWhile_sublist (· ≠ question)
      (l := (argument ++ suffix).takeWhile (· ≠ hash))).length_le
    rw [splitQuery_before, cut]
    exact Nat.lt_of_le_of_lt atMost shorter
  · have plain : hash ∉ argument ++ suffix := by
      rw [List.mem_append, not_or]
      exact ⟨fragment, hash_notMem_suffix isSuffix⟩
    by_cases query : question ∈ argument
    · right
      rw [cut_absent plain, splitQuery_before]
      exact length_takeWhile_present query suffix
    · left
      rw [cut_absent plain, (tail_plain isSuffix fragment query).2]
      exact ⟨fragment, query, rfl⟩

end Url

end SvpMcp
