import SvpMcp.Model.MarketReads
import SvpMcp.Verif.OwnerReads

/-!
# Where the reads of one order or market go

The argument is put into the path as it was given. A slash adds segments, `?` and `#` end the path,
an escape is read as another text, a dot segment leads elsewhere; any other is one segment.
-/

namespace SvpMcp

open Handler Program

/-- The bytes `.` and `..`. -/
def Url.dots : List Bytes := [[0x2e], [0x2e, 0x2e]]

/-- A segment that stands for the directory it is in, or for the one above. -/
def Url.IsDotSegment (seg : Bytes) : Prop := ∃ name ∈ Url.dots, Url.unescape seg = some name

/-- The reads of one order or market. -/
inductive MarketRead where
  | order (orderID : String)
  | orderbook (ticker : String)
  | trades (ticker : String) (limit : UInt32)
  | candles (ticker : String) (args : Indexer.GetCandlesArgs)
  | historicalFunding (ticker : String)

namespace MarketRead

/-- The tool of a read. -/
def run (ctx : Context) : MarketRead → Handler Unit
  | order orderID => do let _ ← getOrder ctx orderID
  | orderbook ticker => do let _ ← getOrderbook ctx ticker
  | trades ticker limit => do let _ ← getTrades ctx ticker limit
  | candles ticker args => do let _ ← getCandles ctx ticker args
  | historicalFunding ticker => do let _ ← getHistoricalFunding ctx ticker

/-- The order's id or the market's ticker. -/
def argument : MarketRead → String
  | order orderID => orderID
  | orderbook ticker => ticker
  | trades ticker _ => ticker
  | candles ticker _ => ticker
  | historicalFunding ticker => ticker

/-- The tool's own path. -/
def endpoint : MarketRead → String
  | order _ => "/orders"
  | orderbook _ => "/orderbooks/perpetualMarket"
  | trades _ _ => "/trades/perpetualMarket"
  | candles _ _ => "/candles/perpetualMarkets"
  | historicalFunding _ => "/historicalFunding"

/-- The tool's own parameters. -/
def query : MarketRead → List (String × String)
  | trades _ limit => Indexer.limitQuery limit
  | candles _ args => args.query
  | _ => []

/-- The bytes of the argument. -/
def name (read : MarketRead) : Bytes := Utf8.encode read.argument.toList

/-- The bytes of the version and of the tool's own path. -/
def directory (read : MarketRead) : Bytes := Utf8.encode ("/v4" ++ read.endpoint).toList

/-- The URL of a request for what the argument names: the base, the version, the tool's own path
and one more segment that is read as the argument and stands in that path, with the tool's own
parameters. -/
structure Confined (read : MarketRead) (base : Url.Base) (url : Url.URL) : Prop where
  scheme : url.scheme = base.scheme.map Url.lowerByte
  authority : url.authority = base.authority
  rootless : url.rootless = []
  path : ∃ seg, url.escapedPath = base.path ++ read.directory ++ Url.slash :: seg ∧
    Url.slash ∉ seg ∧ Url.unescape seg = some read.name ∧ ¬ Url.IsDotSegment seg
  query : url.rawQuery = Url.encodeQuery read.query ∧ url.forceQuery = false
  fragment : url.fragment = []

/-- The argument has no byte with a meaning in a URL and is no dot segment. -/
structure Plain (read : MarketRead) : Prop where
  noSlash : '/' ∉ read.argument.toList
  noQuestion : '?' ∉ read.argument.toList
  noHash : '#' ∉ read.argument.toList
  noPercent : '%' ∉ read.argument.toList
  noDot : read.argument ≠ "."
  noDots : read.argument ≠ ".."

end MarketRead

/-- The base's path is written as it would be escaped. -/
def Url.Base.DefaultEscaping (base : Url.Base) : Prop :=
  ∀ path, Url.unescape base.path = some path → Url.escape path = base.path

section Queries

open Url

/-- A byte is of a part or a separator. -/
theorem mem_intercalate {separator b : UInt8} {parts : List Bytes}
    (member : b ∈ [separator].intercalate parts) : b = separator ∨ ∃ part ∈ parts, b ∈ part := by
  induction parts with
  | nil => exact absurd member List.not_mem_nil
  | cons first rest ih =>
    cases rest with
    | nil =>
      have inFirst : b ∈ first := by simpa using member
      exact .inr ⟨first, List.mem_cons_self, inFirst⟩
    | cons second others =>
      rw [List.intercalate_cons_cons, List.mem_append, List.mem_append, List.mem_singleton]
        at member
      rcases member with (inFirst | isSeparator) | inRest
      · exact .inr ⟨first, List.mem_cons_self, inFirst⟩
      · exact .inl isSeparator
      · rcases ih inRest with isSeparator | ⟨part, isPart, inPart⟩
        · exact .inl isSeparator
        · exact .inr ⟨part, List.mem_cons_of_mem _ isPart, inPart⟩

/-- A first part is kept. -/
theorem intercalate_ne_nil (separator : Bytes) {first : Bytes} (nonempty : first ≠ [])
    (rest : List Bytes) : separator.intercalate (first :: rest) ≠ [] := by
  cases rest with
  | nil => simpa using nonempty
  | cons second others =>
    rw [List.intercalate_cons_cons]
    exact List.append_ne_nil_of_left_ne_nil (List.append_ne_nil_of_left_ne_nil nonempty _) _

/-- A digit marks nothing. -/
theorem upperHex_plain : ∀ n, n < 16 → upperHex n ≠ question ∧ upperHex n ≠ hash := by
  decide

/-- An escaped text holds neither `?` nor `#`. -/
theorem queryEscape_plain {text : Bytes} {b : UInt8} (member : b ∈ queryEscape text) :
    b ≠ question ∧ b ≠ hash := by
  obtain ⟨c, _, inByte⟩ := List.mem_flatMap.mp member
  have bound := c.toNat_lt
  have high := upperHex_plain (c.toNat / 16) (by omega)
  have low := upperHex_plain (c.toNat % 16) (by omega)
  by_cases kept : (isAlphanumeric c || [0x2d, 0x5f, 0x2e, 0x7e].contains c) = true
  · rw [if_pos kept, List.mem_singleton] at inByte
    constructor
    · rintro rfl
      rw [← inByte] at kept
      exact absurd kept (by decide)
    · rintro rfl
      rw [← inByte] at kept
      exact absurd kept (by decide)
  · rw [if_neg kept] at inByte
    by_cases blank : c = 0x20
    · rw [if_pos blank, List.mem_singleton] at inByte
      rw [inByte]
      decide
    · rw [if_neg blank] at inByte
      simp only [List.mem_cons, List.not_mem_nil, or_false] at inByte
      rcases inByte with isPercent | isHigh | isLow
      · rw [isPercent]
        decide
      · rw [isHigh]
        exact high
      · rw [isLow]
        exact low

/-- Nor does a query's text. -/
theorem encodeQuery_plain {query : List (String × String)} {b : UInt8}
    (member : b ∈ encodeQuery query) : b ≠ question ∧ b ≠ hash := by
  rcases mem_intercalate member with isSeparator | ⟨part, isPart, inPart⟩
  · rw [isSeparator]
    decide
  · obtain ⟨⟨key, value⟩, _, rfl⟩ := List.mem_map.mp isPart
    rcases List.mem_append.mp inPart with inKey | inRest
    · exact queryEscape_plain inKey
    · rcases List.mem_cons.mp inRest with isEquals | inValue
      · rw [isEquals]
        decide
      · exact queryEscape_plain inValue

/-- A query has a text. -/
theorem encodeQuery_ne_nil {query : List (String × String)} (nonempty : query ≠ []) :
    encodeQuery query ≠ [] := by
  unfold encodeQuery
  cases sorted : query.insertionSort fun left right => left.1 ≤ right.1 with
  | nil =>
    have lengths := (List.perm_insertionSort (fun left right => left.1 ≤ right.1) query).length_eq
    rw [sorted] at lengths
    exact absurd (List.eq_nil_of_length_eq_zero lengths.symm) nonempty
  | cons first rest =>
    rw [List.map_cons]
    exact intercalate_ne_nil _
      (List.append_ne_nil_of_right_ne_nil _ (List.cons_ne_nil _ _)) _

/-- What stands behind the path of an endpoint. -/
theorem isSuffix_query (query : List (String × String)) :
    IsSuffix (if query = [] then [] else question :: encodeQuery query) (encodeQuery query) := by
  by_cases empty : query = []
  · rw [if_pos empty, empty]
    exact .inl ⟨rfl, rfl⟩
  · rw [if_neg empty]
    exact .inr ⟨rfl, encodeQuery_ne_nil empty, fun member => (encodeQuery_plain member).1 rfl,
      fun member => (encodeQuery_plain member).2 rfl⟩

end Queries

namespace MarketRead

variable (read : MarketRead)

/-- The path a read asks for. -/
def path : String := read.endpoint ++ "/" ++ read.argument

/-- A read asks the indexer for its path with its parameters, and for nothing else. -/
theorem run_only (ctx : Context) :
    Only (fun op => ∀ body path query, op = .indexerGet body path query →
      path = read.path ∧ query = read.query) (read.run ctx) := by
  have authorized (tool : String) : Only (fun op => ∀ body path query,
      op = .indexerGet body path query → path = read.path ∧ query = read.query)
      (authorize ctx tool) :=
    authorize_only (fun _ _ _ _ other => nomatch other) (fun _ _ _ _ other => nomatch other) ctx
      tool
  have asked (body : IndexerBody) (path : String) (format operand : String)
      (isPath : path = read.path) : Only (fun op => ∀ body path query,
      op = .indexerGet body path query → path = read.path ∧ query = read.query)
      (Indexer.lookup body path read.query format operand) := by
    apply only_bind
    · apply only_call
      intro body' path' query' same
      cases same
      exact ⟨isPath, rfl⟩
    · exact fun _ => only_ofResult _
  cases read with
  | order orderID =>
    refine only_bind (only_bind (authorized _) fun _ => ?_) fun _ => only_pure _
    exact asked _ _ _ _ rfl
  | _ =>
    refine only_bind (only_bind (authorized _) fun _ => ?_) fun _ => only_pure _
    exact only_bind (asked _ _ _ _ rfl) fun _ => only_pure _

/-- A directory that stands for itself: no byte of it is escaped, or has another meaning than to
separate its segments. -/
def StandsForItself (directory : Bytes) : Prop :=
  directory.head? = some Url.slash ∧ Url.percent ∉ directory ∧ Url.escape directory = directory ∧
    Url.validEncoded directory = true ∧ Url.question ∉ directory ∧ Url.hash ∉ directory

/-- Whether a directory stands for itself is decidable. -/
instance (directory : Bytes) : Decidable (StandsForItself directory) :=
  inferInstanceAs (Decidable (_ ∧ _))

/-- Every directory of the indexer stands for itself. -/
theorem directory_standsForItself : StandsForItself read.directory := by
  cases read with
  | _ =>
    simp only [directory, endpoint]
    decide

/-- The path before the argument is escaped by default exactly if the base's is. -/
theorem defaultEscaping_iff (base : Url.Base) :
    (∀ dir, Url.unescape (base.path ++ read.directory) = some dir →
      Url.escape dir = base.path ++ read.directory) ↔ base.DefaultEscaping := by
  obtain ⟨rooted, plain, escaped, _⟩ := read.directory_standsForItself
  cases isDirectory : read.directory with
  | nil =>
    rw [isDirectory] at rooted
    cases rooted
  | cons first rest =>
    rw [isDirectory] at rooted plain escaped
    have isSlash : first = Url.slash := Option.some.inj rooted
    have isRest : Url.unescape rest = some rest :=
      Url.unescape_plain fun member => plain (List.mem_cons_of_mem _ member)
    have escapedRest : Url.escape rest = rest := by
      have split := Url.escape_slash [] rest
      rw [List.nil_append, ← isSlash, escaped] at split
      exact (List.cons.inj split).2.symm
    rw [isSlash, Url.unescape_slash]
    constructor
    · intro kept path isPath
      have whole := kept (path ++ Url.slash :: rest) (by rw [isPath, isRest]; rfl)
      rw [Url.escape_slash, escapedRest] at whole
      exact List.append_cancel_right whole
    · intro kept dir isDir
      obtain ⟨path, isPath, isDir⟩ := Option.bind_eq_some_iff.mp isDir
      rw [isRest] at isDir
      rw [← Option.some.inj isDir, Url.escape_slash, escapedRest, kept path isPath]

/-- An endpoint is the base, the directory and the argument, with the query behind it. -/
theorem endpoint_eq {c : IndexerClient} {base : Url.Base}
    (isBase : Utf8.encode c.baseURL = base.text) :
    c.endpoint read.path read.query =
      base.text ++ (read.directory ++ [Url.slash] ++ (read.name ++
        if read.query = [] then [] else Url.question :: Url.encodeQuery read.query)) := by
  have isSlash : Utf8.encode "/".toList = [Url.slash] := by decide
  rw [IndexerClient.endpoint, path, directory, name, ← isBase]
  simp only [String.toList_append, Utf8.encode_append, isSlash, List.append_assoc]

/-- The bytes of a plain argument. -/
theorem plain_iff :
    read.Plain ↔ (Url.slash ∉ read.name ∧ Url.question ∉ read.name ∧ Url.hash ∉ read.name ∧
      Url.percent ∉ read.name) ∧ read.name ∉ Url.dots := by
  have noSlash : Url.slash ∈ read.name ↔ '/' ∈ read.argument.toList :=
    Utf8.mem_encode (c := '/') (by decide)
  have noQuestion : Url.question ∈ read.name ↔ '?' ∈ read.argument.toList :=
    Utf8.mem_encode (c := '?') (by decide)
  have noHash : Url.hash ∈ read.name ↔ '#' ∈ read.argument.toList :=
    Utf8.mem_encode (c := '#') (by decide)
  have noPercent : Url.percent ∈ read.name ↔ '%' ∈ read.argument.toList :=
    Utf8.mem_encode (c := '%') (by decide)
  have named (text : String) : read.name = Utf8.encode text.toList ↔ read.argument = text := by
    constructor
    · intro same
      exact String.toList_inj.mp (Utf8.encode_inj same)
    · intro same
      rw [name, same]
  have isDots : Url.dots = [Utf8.encode ".".toList, Utf8.encode "..".toList] := by decide
  rw [noSlash, noQuestion, noHash, noPercent, isDots, List.mem_cons, List.mem_singleton, named,
    named, not_or]
  constructor
  · intro plain
    exact ⟨⟨plain.noSlash, plain.noQuestion, plain.noHash, plain.noPercent⟩, plain.noDot,
      plain.noDots⟩
  · intro ⟨⟨noSlash, noQuestion, noHash, noPercent⟩, noDot, noDots⟩
    exact ⟨noSlash, noQuestion, noHash, noPercent, noDot, noDots⟩

/-- The directory needs no escape. -/
theorem validEncoded_front (base : Url.Base) (name : Bytes) :
    Url.validEncoded (base.path ++ read.directory ++ Url.slash :: name) = true ↔
      Url.validEncoded base.path = true ∧ Url.validEncoded name = true := by
  obtain ⟨_, _, _, valid, _⟩ := read.directory_standsForItself
  have slash : Url.validEncoded (Url.slash :: name) = Url.validEncoded name := rfl
  have split : Url.validEncoded (base.path ++ read.directory ++ Url.slash :: name) =
      (Url.validEncoded base.path && Url.validEncoded read.directory &&
        Url.validEncoded (Url.slash :: name)) := by
    rw [Url.validEncoded, List.all_append, List.all_append]
    rfl
  rw [split, valid, slash, Bool.and_true, Bool.and_eq_true]

/-- The request of a read is confined exactly if its argument is plain and the base's path is sent
as it is written. -/
theorem confined_iff {read : MarketRead} {hostOk : Bytes → Bool} {c : IndexerClient}
    {base : Url.Base} {url : Url.URL} (isBase : Utf8.encode c.baseURL = base.text)
    (issued : c.request hostOk read.path read.query = .ok url) :
    read.Confined base url ↔ read.Plain ∧
      (base.DefaultEscaping ∨
        Url.validEncoded base.path = true ∧ Url.validEncoded read.name = true) := by
  obtain ⟨rooted, _, _, _, noQuestion, noHash⟩ := read.directory_standsForItself
  have slashPlain (b : UInt8) (other : b ≠ Url.slash) (absent : b ∉ read.directory) :
      b ∉ read.directory ++ [Url.slash] := by
    rw [List.mem_append, List.mem_singleton, not_or]
    exact ⟨absent, other⟩
  have dirRooted : (read.directory ++ [Url.slash]).head? = some Url.slash := by
    rw [List.head?_append, rooted]
    rfl
  have isSuffix := isSuffix_query read.query
  rw [IndexerClient.request, read.endpoint_eq isBase] at issued
  have parsed := Url.parse_ok dirRooted (slashPlain _ (by decide) noQuestion)
    (slashPlain _ (by decide) noHash) issued
  obtain ⟨whole, isWhole, isSent⟩ := parsed.path
  have text (name : Bytes) : base.path ++ (read.directory ++ [Url.slash] ++ name) =
      base.path ++ read.directory ++ Url.slash :: name := by
    simp
  rw [text] at isWhole isSent
  have tail := Url.tail_name read.name isSuffix
  -- The segment is the argument, or a part of it that cannot be read as the argument.
  have sentAs := Url.sentAs_iff read.name isWhole
    (tail.imp (fun whole => whole.2.2) id)
  rw [validEncoded_front, defaultEscaping_iff, Or.comm] at sentAs
  rw [read.plain_iff]
  constructor
  · intro confined
    obtain ⟨seg, isSeg, oneSegment, isName, noDots⟩ := confined.path
    rw [isSent] at isSeg
    obtain ⟨whole, noSlash, noPercent, kept⟩ := sentAs.mp ⟨seg, isSeg, oneSegment, isName⟩
    rcases tail with ⟨noHash, noQuestion, _⟩ | short
    · exact ⟨⟨⟨noSlash, noQuestion, noHash, noPercent⟩, fun isDots =>
        noDots ⟨read.name, isDots, isName⟩⟩, kept⟩
    · rw [whole] at short
      exact absurd short (Nat.lt_irrefl _)
  · intro ⟨⟨⟨noSlash, noQuestion, noHash, noPercent⟩, noDots⟩, kept⟩
    obtain ⟨isCut, isSplit⟩ := Url.tail_plain isSuffix noHash noQuestion
    rw [isCut, isSplit] at sentAs isSent
    obtain ⟨seg, isSeg, oneSegment, isName⟩ := sentAs.mpr ⟨rfl, noSlash, noPercent, kept⟩
    have query := parsed.query
    rw [isCut, isSplit] at query
    have fragment : url.fragment = [] := parsed.fragment (by rw [isCut])
    refine ⟨parsed.scheme, parsed.authority, parsed.rootless,
      ⟨seg, isSent.trans isSeg, oneSegment, isName, ?_⟩, Prod.mk.inj query, fragment⟩
    intro ⟨name, isDots, isDotSegment⟩
    rw [isName] at isDotSegment
    exact noDots (Option.some.inj isDotSegment ▸ isDots)

end MarketRead

/-- The request of a read is the base, the version, the tool's own path and the argument exactly
if the argument holds none of `/`, `?`, `#` and `%` and is neither `.` nor `..`, and the base's
path is written as it would be escaped or nothing in the path has to be escaped. -/
theorem market_read_confined_iff {deps : Deps} {ctx : Context} {w w' : World}
    {events : Events} {result : Except Fault Unit}
    {read : MarketRead} {baseURL : String} {base : Url.Base} {hostOk : Bytes → Bool}
    {body : IndexerBody} {path : String} {query : List (String × String)} {url : Url.URL}
    (isBase : Utf8.encode (IndexerClient.new baseURL).baseURL = base.text)
    (run : Alone deps w (read.run ctx) events w' result)
    (asked : ∃ e ∈ events, e.op = .indexerGet body path query)
    (issued : (IndexerClient.new baseURL).request hostOk path query = .ok url) :
    read.Confined base url ↔ read.Plain ∧
      (base.DefaultEscaping ∨
        Url.validEncoded base.path = true ∧ Url.validEncoded read.name = true) := by
  obtain ⟨e, member, isGet⟩ := asked
  obtain ⟨isPath, isQuery⟩ := exec_calls (read.run_only ctx) run e member body path query isGet
  rw [isPath, isQuery] at issued
  exact read.confined_iff isBase issued

/-- The indexer's default address. -/
def localBase : Url.Base where
  scheme := Utf8.encode "http".toList
  authority := Utf8.encode "127.0.0.1:3002".toList
  path := []
  isScheme := ⟨0x68, [0x74, 0x74, 0x70], by decide, by decide, fun b member =>
    .inl (List.all_eq_true.mp (show [0x74, 0x74, 0x70].all Url.isLetter = true by decide) b
      member)⟩
  oneAuthority := by decide
  rooted := .inl rfl
  noQuery := by decide
  noFragment := by decide

/-- The run of a read by the tenant. -/
def localRun (read : MarketRead) :
    Events × World × Except Fault Unit :=
  runAlone (server (omittedDeps 0)) (fun _ => acceptingEnv 0) 0 omittedWorld
    (read.run omittedContext)

/-- The URL of a read. -/
def localRequest (read : MarketRead) : Except Url.ParseFault Url.URL :=
  (IndexerClient.new "http://127.0.0.1:3002/").request (fun _ => true) read.path read.query

/-- The base of a local indexer. -/
theorem localBase_text :
    Utf8.encode (IndexerClient.new "http://127.0.0.1:3002/").baseURL = localBase.text := by
  decide +kernel

/-- What is sent was issued. -/
theorem localRequest_sent {read : MarketRead} {uri : String}
    (sent : (localRequest read).map Url.URL.requestURI = .ok (Utf8.encode uri.toList)) :
    ∃ url, localRequest read = .ok url ∧ url.requestURI = Utf8.encode uri.toList := by
  cases issued : localRequest read with
  | error fault =>
    rw [issued] at sent
    cases sent
  | ok url =>
    rw [issued] at sent
    exact ⟨url, rfl, Except.ok.inj sent⟩

/-- The candles of a market whose ticker has a blank. -/
def blankCandles : MarketRead := .candles "BTC USD" ⟨"1DAY", 5, "", ""⟩

/-- A blank in a ticker is escaped, and the request is confined. -/
theorem market_read_confined_iff_blank :
    ∃ url, localRequest blankCandles = .ok url ∧
      url.requestURI =
        Utf8.encode "/v4/candles/perpetualMarkets/BTC%20USD?limit=5&resolution=1DAY".toList ∧
      blankCandles.Confined localBase url := by
  have sent : (localRequest blankCandles).map Url.URL.requestURI = .ok
      (Utf8.encode "/v4/candles/perpetualMarkets/BTC%20USD?limit=5&resolution=1DAY".toList) := by
    decide +kernel
  obtain ⟨url, issued, uri⟩ := localRequest_sent sent
  have run := alone_runAlone (omittedDeps 0) (fun _ => acceptingEnv 0) 0 omittedWorld
    (blankCandles.run omittedContext)
  have asked : ∃ e ∈ (localRun blankCandles).1,
      e.op = .indexerGet (.entries "candles") blankCandles.path blankCandles.query :=
    ⟨_, List.mem_of_getElem? (i := 3) rfl, rfl⟩
  have plain : blankCandles.Plain :=
    ⟨by decide, by decide, by decide, by decide, by decide, by decide⟩
  refine ⟨url, issued, uri,
    (market_read_confined_iff localBase_text run asked issued).mpr ⟨plain, .inl ?_⟩⟩
  intro path isPath
  rw [← Option.some.inj isPath]
  rfl

/-- An order's id can lead to another endpoint, and can add parameters. -/
theorem order_read_redirected :
    (∃ url, localRequest (.order "../height") = .ok url ∧
      url.requestURI = Utf8.encode "/v4/orders/../height".toList ∧
      ¬ (MarketRead.order "../height").Confined localBase url ∧
      ∃ e ∈ (localRun (.order "../height")).1, e.op = .indexerGet .order "/orders/../height" []) ∧
    (∃ url, localRequest (.order "?address=svp1other") = .ok url ∧
      url.requestURI = Utf8.encode "/v4/orders/?address=svp1other".toList ∧
      ¬ (MarketRead.order "?address=svp1other").Confined localBase url ∧
      ∃ e ∈ (localRun (.order "?address=svp1other")).1,
        e.op = .indexerGet .order "/orders/?address=svp1other" []) := by
  constructor
  · have sent : (localRequest (.order "../height")).map Url.URL.requestURI =
        .ok (Utf8.encode "/v4/orders/../height".toList) := by
      decide +kernel
    obtain ⟨url, issued, uri⟩ := localRequest_sent sent
    refine ⟨url, issued, uri, ?_, _, List.mem_of_getElem? (i := 3) rfl, rfl⟩
    intro confined
    obtain ⟨plain, _⟩ := (MarketRead.confined_iff localBase_text issued).mp confined
    exact plain.noSlash (by decide)
  · have sent : (localRequest (.order "?address=svp1other")).map Url.URL.requestURI =
        .ok (Utf8.encode "/v4/orders/?address=svp1other".toList) := by
      decide +kernel
    obtain ⟨url, issued, uri⟩ := localRequest_sent sent
    refine ⟨url, issued, uri, ?_, _, List.mem_of_getElem? (i := 3) rfl, rfl⟩
    intro confined
    obtain ⟨plain, _⟩ := (MarketRead.confined_iff localBase_text issued).mp confined
    exact plain.noQuestion (by decide)

end SvpMcp
