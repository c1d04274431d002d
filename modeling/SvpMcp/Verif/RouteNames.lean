import Mathlib.Data.List.Dedup
import SvpMcp.Model.BridgeRegistry

/-!
# The names of the bridge's routes

The registry keeps names as they are written, the lookups trim and fold: which lists of routes
make every advertised name lead back to what it names.
-/

namespace SvpMcp

variable {name : String} {routes : List Route} {value : Unit} {id : UInt64} {i : Nat}

/-- The symbol of a route as a lookup reads it. -/
def Route.query (r : Route) : String := String.ofList (Strings.trimSpace r.symbol.toList)

namespace Registry

variable {reg reg' : Registry} {raws : List RawRoute} {r : Route}

/-- The chains a list of routes names, in the order they are learned. -/
def mentions (raws : List RawRoute) : List (String × UInt64) :=
  raws.flatMap fun r => [(r.srcChain, r.srcChainId), (r.targetChain, r.targetChainId)]

/-- The first name a list of routes has for a chain. -/
def firstName (raws : List RawRoute) (id : UInt64) : Option String :=
  ((mentions raws).find? fun m => m.1 ≠ "" ∧ m.2 = id).map (·.1)

/-- The chain a list of routes has a name for last, without regard to case. -/
def lastID (raws : List RawRoute) (name : String) : Option UInt64 :=
  ((mentions raws).reverse.find? fun m => m.1 ≠ "" ∧ Strings.toLower m.1 = name).map (·.2)

/-- The first name of an id is kept. -/
theorem learnChain_idToName (reg : Registry) (name : String) (id k : UInt64) :
    (reg.learnChain name id).idToName.get k =
      (reg.idToName.get k).or (if name ≠ "" ∧ id = k then some name else none) := by
  unfold learnChain
  by_cases unnamed : name = ""
  · simp [unnamed]
  · cases known : reg.idToName.get id with
    | some first =>
      by_cases here : id = k
      · simp [unnamed, ← here, known]
      · simp [unnamed, here]
    | none =>
      by_cases here : id = k
      · simp [unnamed, ← here, known]
      · simp [unnamed, here, Table.get_set, Ne.symm here]

/-- The last id of a name is kept. -/
theorem learnChain_nameToID (reg : Registry) (name key : String) (id : UInt64) :
    (reg.learnChain name id).nameToID.get key =
      (if name ≠ "" ∧ Strings.toLower name = key then some id else none).or
        (reg.nameToID.get key) := by
  unfold learnChain
  by_cases unnamed : name = ""
  · simp [unnamed]
  · by_cases here : Strings.toLower name = key
    · simp [unnamed, here]
    · simp [unnamed, here, Table.get_set, Ne.symm here]

/-- Learning a name adds no route. -/
@[simp] theorem learnChain_routes (reg : Registry) (name : String) (id : UInt64) :
    (reg.learnChain name id).routes = reg.routes := by
  unfold learnChain
  split <;> rfl

/-- A row names its source, then its target. -/
theorem firstName_cons (raw : RawRoute) (rest : List RawRoute) (id : UInt64) :
    firstName (raw :: rest) id =
      ((if raw.srcChain ≠ "" ∧ raw.srcChainId = id then some raw.srcChain else none).or
        (if raw.targetChain ≠ "" ∧ raw.targetChainId = id then some raw.targetChain else none)).or
          (firstName rest id) := by
  change (List.find? _ ((raw.srcChain, raw.srcChainId) :: (raw.targetChain, raw.targetChainId) ::
    mentions rest)).map _ = _
  rw [List.find?_cons, List.find?_cons]
  by_cases source : raw.srcChain ≠ "" ∧ raw.srcChainId = id
  · simp [source]
  · by_cases target : raw.targetChain ≠ "" ∧ raw.targetChainId = id
    · simp [source, target]
    · simp only [if_neg source, if_neg target, decide_eq_false source, decide_eq_false target]
      rfl

/-- Later rows overrule a row. -/
theorem lastID_cons (raw : RawRoute) (rest : List RawRoute) (name : String) :
    lastID (raw :: rest) name = (lastID rest name).or
      ((if raw.targetChain ≠ "" ∧ Strings.toLower raw.targetChain = name then
          some raw.targetChainId else none).or
        (if raw.srcChain ≠ "" ∧ Strings.toLower raw.srcChain = name then
          some raw.srcChainId else none)) := by
  have chains : (mentions (raw :: rest)).reverse = (mentions rest).reverse ++
      [(raw.targetChain, raw.targetChainId), (raw.srcChain, raw.srcChainId)] := by
    change ((raw.srcChain, raw.srcChainId) :: (raw.targetChain, raw.targetChainId) ::
      mentions rest).reverse = _
    rw [List.reverse_cons, List.reverse_cons, List.append_assoc]
    rfl
  rw [lastID, chains, List.find?_append, Option.map_or, List.find?_cons, List.find?_cons,
    ← lastID]
  congr 1
  by_cases target : raw.targetChain ≠ "" ∧ Strings.toLower raw.targetChain = name
  · simp [target]
  · by_cases source : raw.srcChain ≠ "" ∧ Strings.toLower raw.srcChain = name
    · simp [source, target]
    · simp only [if_neg source, if_neg target, decide_eq_false source, decide_eq_false target]
      rfl

/-- Two routes of one leg. -/
def SameLeg (a b : Route) : Prop :=
  a.srcChainID = b.srcChainID ∧ a.targetChainID = b.targetChainID

/-- Legs can be compared. -/
instance : DecidableRel SameLeg := fun a b =>
  inferInstanceAs (Decidable (a.srcChainID = b.srcChainID ∧ a.targetChainID = b.targetChainID))

/-- No token has two routes on a leg. -/
theorem checkDuplicate_ok (checked : checkDuplicate routes r = .ok value) :
    ∀ other ∈ routes, SameLeg other r → other.srcToken ≠ r.srcToken := by
  obtain ⟨_, fresh, _⟩ := bind_eq_ok.mp checked
  have notAny := refuseIf_eq_ok.mp fresh
  intro other member leg same
  refine notAny (List.any_eq_true.mpr ⟨other, List.mem_filter.mpr ⟨member, ?_⟩, ?_⟩)
  · exact decide_eq_true leg
  · exact decide_eq_true same

/-- A symbol is not blank. -/
theorem checkRaw_symbol {raw : RawRoute} (checked : checkRaw i raw = .ok value) :
    Strings.trimSpace raw.symbol.toList ≠ [] := by
  simp [checkRaw] at checked
  exact checked.2.2.2.1

/-- The routes of a leg differ in their tokens, and every symbol is more than white space. -/
structure Separate (routes : List Route) : Prop where
  tokens : routes.Pairwise fun a b => SameLeg a b → a.srcToken ≠ b.srcToken
  symbols : ∀ r ∈ routes, Strings.trimSpace r.symbol.toList ≠ []

/-- What the loop leaves: the routes of its rows, separate, the first name of each chain and the
last chain of each name. -/
theorem addRoutes_ok (separate : Separate reg.routes) (added : addRoutes i raws reg = .ok reg') :
    Separate reg'.routes ∧ reg'.routes = reg.routes ++ raws.map RawRoute.toRoute ∧
      (∀ id, reg'.idToName.get id = (reg.idToName.get id).or (firstName raws id)) ∧
      ∀ name, reg'.nameToID.get name = (lastID raws name).or (reg.nameToID.get name) := by
  -- The induction follows the loop; the registry so far is its accumulator.
  induction raws generalizing i reg with
  | nil =>
    cases added
    exact ⟨separate, (List.append_nil _).symm, fun _ => Option.or_none.symm,
      fun _ => Option.none_or.symm⟩
  | cons raw rest ih =>
    obtain ⟨_, checked, added⟩ := bind_eq_ok.mp added
    obtain ⟨_, fresh, added⟩ := bind_eq_ok.mp added
    have next : Separate (reg.routes ++ [RawRoute.toRoute raw]) := by
      refine ⟨List.pairwise_append.mpr ⟨separate.tokens, List.pairwise_singleton _ _, ?_⟩, ?_⟩
      · intro other member last isLast
        rw [List.mem_singleton.mp isLast]
        exact checkDuplicate_ok fresh other member
      · intro r member
        rcases List.mem_append.mp member with old | new
        · exact separate.symbols r old
        · rw [List.mem_singleton.mp new]
          exact checkRaw_symbol checked
    obtain ⟨kept, routes, names, ids⟩ := ih (by simpa using next) added
    refine ⟨kept, ?_, fun id => ?_, fun name => ?_⟩
    · rw [routes, learnChain_routes, learnChain_routes, List.append_assoc]
      rfl
    · rw [names, learnChain_idToName, learnChain_idToName, firstName_cons, Option.or_assoc,
        Option.or_assoc, Option.or_assoc]
    · rw [ids, learnChain_nameToID, learnChain_nameToID, lastID_cons, Option.or_assoc,
        Option.or_assoc]

/-- What loading leaves of the rows it accepts. -/
theorem ofRaw_ok (loaded : ofRaw raws = .ok reg) :
    Separate reg.routes ∧ reg.routes = raws.map RawRoute.toRoute ∧
      (∀ id, reg.idToName.get id = firstName raws id) ∧
      ∀ name, reg.nameToID.get name = lastID raws name := by
  have none : Separate [] := ⟨List.Pairwise.nil, fun _ impossible => nomatch impossible⟩
  obtain ⟨separate, routes, names, ids⟩ := addRoutes_ok none loaded
  exact ⟨separate, routes, fun id => (names id).trans Option.none_or,
    fun name => (ids name).trans Option.or_none⟩

/-- The first route that matches is selected. -/
theorem selectRoute_eq_ok {selected : Route → Bool} {notFound : String} {operands : List String} :
    selectRoute routes selected notFound operands = .ok r ↔ routes.find? selected = some r := by
  unfold selectRoute
  cases routes.find? selected with
  | some found => simp
  | none => simp

/-- A symbol folds to its trimmed text only if there is nothing to trim. -/
theorem equalFold_trimSpace {symbol : String} :
    Strings.equalFold symbol (String.ofList (Strings.trimSpace symbol.toList)) = true ↔
      Strings.trimSpace symbol.toList = symbol.toList := by
  unfold Strings.equalFold
  rw [decide_eq_true_eq, String.toList_ofList]
  constructor
  · intro same
    have sublist : (Strings.trimSpace symbol.toList).Sublist symbol.toList :=
      ((List.rdropWhile_prefix _ _).sublist).trans (List.dropWhile_suffix _).sublist
    have lengths := congrArg List.length same
    rw [List.length_map, List.length_map] at lengths
    exact sublist.eq_of_length lengths.symm
  · intro same
    rw [same]

/-- A route that its symbol leads to, given the routes before it: a reserved word must be the
native coin's, an address the token's own, and any other symbol has no white space around it and
differs, under case folding, from those of the leg's earlier routes. -/
structure TokenReached (before : List Route) (r : Route) : Prop where
  reserved : Strings.toLower r.query = "native" → r.srcToken = .zero
  address : Strings.toLower r.query ≠ "native" → Address.isHex r.query.toList = true →
    r.srcToken = .ofHex r.query
  symbol : Strings.toLower r.query ≠ "native" → Address.isHex r.query.toList = false →
    r.query = r.symbol ∧
      ∀ a ∈ before, SameLeg a r → Strings.equalFold a.symbol r.symbol = false

/-- The symbol of a route leads to it exactly when it is reached. -/
theorem lookup_symbol_iff {before after : List Route} (separate : Separate reg.routes)
    (split : reg.routes = before ++ r :: after) :
    reg.lookup r.srcChainID r.targetChainID r.symbol = .ok r ↔ TokenReached before r := by
  have ahead : ∀ a ∈ before, SameLeg a r → a.srcToken ≠ r.srcToken := by
    have pairs := separate.tokens
    rw [split, List.pairwise_append] at pairs
    exact fun a member => pairs.2.2 a member r List.mem_cons_self
  have member : r ∈ reg.routes := by
    rw [split]
    exact List.mem_append_right _ List.mem_cons_self
  -- The leg of the route, split at the route.
  let inLeg : Route → Bool := fun a => SameLeg a r
  have leg : reg.routesFor r.srcChainID r.targetChainID =
      before.filter inLeg ++ r :: after.filter inLeg := by
    have isLeg : reg.routesFor r.srcChainID r.targetChainID = reg.routes.filter inLeg := rfl
    have own : inLeg r = true := decide_eq_true ⟨rfl, rfl⟩
    rw [isLeg, split, List.filter_append, List.filter_cons_of_pos own]
  have inside : ∀ a ∈ before.filter inLeg, a ∈ before ∧ SameLeg a r := fun a kept =>
    ⟨(List.mem_filter.mp kept).1, of_decide_eq_true (List.mem_filter.mp kept).2⟩
  have fresh : r ∉ before.filter inLeg := fun kept =>
    ahead r (inside r kept).1 ⟨rfl, rfl⟩ rfl
  have byToken : ∀ token : Address, (before.filter inLeg ++ r :: after.filter inLeg).find?
      (fun a => a.srcToken = token) = some r ↔ r.srcToken = token := by
    intro token
    rw [find?_split fresh, decide_eq_true_eq]
    refine ⟨And.left, fun isOwn => ⟨isOwn, fun a kept => ?_⟩⟩
    rw [decide_eq_false_iff_not]
    have other := ahead a (inside a kept).1 (inside a kept).2
    rwa [isOwn] at other
  have notEmpty : Strings.toLower r.query ≠ "" := by
    intro empty
    have chars := congrArg String.toList empty
    rw [Strings.toLower, Route.query, String.toList_ofList, String.toList_ofList] at chars
    exact separate.symbols r member (List.map_eq_nil_iff.mp chars)
  have isQuery : String.ofList (Strings.trimSpace r.symbol.toList) = r.query := rfl
  simp only [lookup, isQuery, leg, notEmpty, false_or]
  rw [if_neg (by simp)]
  by_cases native : Strings.toLower r.query = "native"
  · rw [if_pos native, selectRoute_eq_ok]
    refine (byToken .zero).trans ?_
    exact ⟨fun isNative => ⟨fun _ => isNative, fun other => absurd native other,
      fun other => absurd native other⟩, fun reached => reached.reserved native⟩
  · rw [if_neg native]
    cases isHex : Address.isHex r.query.toList with
    | true =>
      rw [if_pos rfl, selectRoute_eq_ok, byToken]
      refine ⟨fun isOwn => ⟨fun other => absurd other native, fun _ _ => isOwn, ?_⟩,
        fun reached => reached.address native isHex⟩
      intro _ notHex
      cases isHex.symm.trans notHex
    | false =>
      rw [if_neg Bool.false_ne_true, selectRoute_eq_ok, find?_split fresh, Route.query,
        equalFold_trimSpace, ← Route.query]
      constructor
      · rintro ⟨trimmed, first⟩
        have isSymbol : r.query = r.symbol := by rw [Route.query, trimmed, String.ofList_toList]
        refine ⟨fun other => absurd other native, fun _ other => ?_, fun _ _ => ⟨isSymbol, ?_⟩⟩
        · cases isHex.symm.trans other
        · intro a earlier sameLeg
          rw [← isSymbol]
          exact first a (List.mem_filter.mpr ⟨earlier, decide_eq_true sameLeg⟩)
      · intro reached
        obtain ⟨isSymbol, first⟩ := reached.symbol native isHex
        have chars := congrArg String.toList isSymbol
        rw [Route.query, String.toList_ofList] at chars
        refine ⟨chars, fun a kept => ?_⟩
        rw [isSymbol]
        exact first a (inside a kept).1 (inside a kept).2

/-- The chains at the far end, with their names. -/
theorem mem_farChains {matching : Route → Bool} {far : Route → UInt64} :
    (name, id) ∈ reg.farChains matching far ↔
      (reg.idToName.get id).getD "" = name ∧ ∃ r ∈ reg.routes, matching r = true ∧ far r = id := by
  simp only [farChains, List.mem_map, List.mem_insertionSort, List.mem_dedup, List.mem_filter,
    Prod.mk.injEq]
  constructor
  · rintro ⟨_, ⟨r, ⟨member, matches_⟩, isFar⟩, isName, rfl⟩
    exact ⟨isName, r, member, matches_, isFar⟩
  · rintro ⟨isName, r, member, matches_, isFar⟩
    exact ⟨id, ⟨r, ⟨member, matches_⟩, isFar⟩, isName, rfl⟩

/-- Only the empty text is lowered to it. -/
theorem toLower_eq_empty {text : String} (empty : Strings.toLower text = "") : text = "" := by
  have chars := congrArg String.toList empty
  rw [Strings.toLower, String.toList_ofList] at chars
  exact String.toList_eq_nil_iff.mp (List.map_eq_nil_iff.mp chars)

/-- No chain has the empty name. -/
theorem lastID_empty (raws : List RawRoute) : lastID raws "" = none := by
  rw [lastID, Option.map_eq_none_iff, List.find?_eq_none]
  intro m _
  rw [decide_eq_true_eq]
  exact fun named => named.1 (toLower_eq_empty named.2)

/-- The chain a text names: a number is its own chain, another text the one that has the name
last. -/
def namedIn (raws : List RawRoute) (name : String) : Option UInt64 :=
  let q := Strings.trimSpace name.toList
  (Decimal.readUint64 q).or (lastID raws (Strings.toLower (String.ofList q)))

/-- A chain is found as the rows name it. -/
theorem namedChain_eq (ids : ∀ name, reg.nameToID.get name = lastID raws name) (name : String) :
    reg.namedChain (Strings.trimSpace name.toList) = namedIn raws name := by
  cases isNumber : Decimal.readUint64 (Strings.trimSpace name.toList) with
  | some id => simp only [namedChain, namedIn, isNumber, Option.some_or]
  | none => simp only [namedChain, namedIn, isNumber, Option.none_or, ids]

/-- A blank names no chain. -/
theorem namedIn_blank (blank : Strings.trimSpace name.toList = []) :
    namedIn raws name = none := by
  rw [namedIn, blank]
  exact lastID_empty raws

/-- A name leads to another chain that a route reaches exactly when it is the chain it names. -/
theorem resolveChain_eq_ok {fixedID id : UInt64} {fixedIsTarget : Bool}
    (ids : ∀ name, reg.nameToID.get name = lastID raws name) (other : id ≠ fixedID)
    (reaches : reg.routesFor (if fixedIsTarget then id else fixedID)
      (if fixedIsTarget then fixedID else id) ≠ []) :
    reg.resolveChain name fixedID fixedIsTarget = .ok id ↔ namedIn raws name = some id := by
  simp only [resolveChain, namedChain_eq ids]
  by_cases blank : Strings.trimSpace name.toList = []
  · simp [blank, namedIn_blank blank]
  · simp only [if_neg blank]
    cases found : namedIn raws name with
    | none => simp
    | some chain =>
      by_cases isFixed : chain = fixedID
      · simp only [if_pos isFixed, reduceCtorEq, false_iff, Option.some.injEq]
        exact fun same => other (same.symm.trans isFixed)
      · simp only [if_neg isFixed, Option.some.injEq]
        constructor
        · intro resolved
          by_cases none : reg.routesFor (if fixedIsTarget then (chain, fixedID) else
              (fixedID, chain)).1
              (if fixedIsTarget then (chain, fixedID) else (fixedID, chain)).2 = []
          · rw [if_pos none] at resolved
            cases resolved
          · rw [if_neg none] at resolved
            exact Except.ok.inj resolved
        · rintro rfl
          cases fixedIsTarget with
          | true => exact if_neg reaches
          | false => exact if_neg reaches

/-- A chain that the name it is listed under leads to, if it has one. -/
def ChainReached (raws : List RawRoute) (id : UInt64) : Prop :=
  ∀ name, firstName raws id = some name → namedIn raws name = some id

/-- A name is not empty. -/
theorem firstName_ne_empty (isName : firstName raws id = some name) :
    name ≠ "" := by
  obtain ⟨m, found, isFirst⟩ := Option.map_eq_some_iff.mp isName
  have selected := List.find?_some found
  rw [decide_eq_true_eq] at selected
  exact isFirst ▸ selected.1

/-- The chains listed for one end of the legs are resolved if and only if those at the far end of
the routes between two chains are reached. -/
theorem chains_resolve_iff (loaded : ofRaw raws = .ok reg) (fixedIsTarget : Bool)
    (near far : Route → UInt64)
    (ends : ∀ r : Route, (r.srcChainID, r.targetChainID) =
      if fixedIsTarget then (far r, near r) else (near r, far r)) :
    (∀ f name id, (name, id) ∈ reg.farChains (fun r => near r = f) far → name ≠ "" → id ≠ f →
        reg.resolveChain name f fixedIsTarget = .ok id) ↔
      ∀ r ∈ reg.routes, near r ≠ far r → ChainReached raws (far r) := by
  obtain ⟨_, _, names, ids⟩ := ofRaw_ok loaded
  have reaches : ∀ r ∈ reg.routes, reg.routesFor (if fixedIsTarget then far r else near r)
      (if fixedIsTarget then near r else far r) ≠ [] := by
    intro r member none
    have isEnds := ends r
    have absent := List.filter_eq_nil_iff.mp none r member
    refine absent (decide_eq_true ?_)
    cases fixedIsTarget with
    | true => exact ⟨congrArg Prod.fst isEnds, congrArg Prod.snd isEnds⟩
    | false => exact ⟨congrArg Prod.fst isEnds, congrArg Prod.snd isEnds⟩
  constructor
  · intro resolves r member apart name isName
    have listed : (name, far r) ∈ reg.farChains (fun r' => near r' = near r) far := by
      refine mem_farChains.mpr ⟨?_, r, member, decide_eq_true rfl, rfl⟩
      rw [names, isName]
      rfl
    have resolved := resolves (near r) name (far r) listed (firstName_ne_empty isName) apart.symm
    exact (resolveChain_eq_ok ids apart.symm (reaches r member)).mp resolved
  · intro reached f name id listed named other
    obtain ⟨isName, r, member, isNear, isFar⟩ := mem_farChains.mp listed
    have isNear : near r = f := of_decide_eq_true isNear
    rw [← isNear, ← isFar] at other ⊢
    rw [← isFar, names] at isName
    cases first : firstName raws (far r) with
    | none =>
      rw [first] at isName
      exact absurd isName.symm named
    | some known =>
      rw [first] at isName
      have same : known = name := isName
      exact (resolveChain_eq_ok ids other (reaches r member)).mpr
        (reached r member other.symm name (same ▸ first))

/-- A registry whose advertised names lead back to what they name: the symbol of a route to the
route, the name of a chain listed as a target or as a source to the chain. -/
structure Reachable (reg : Registry) : Prop where
  tokens : ∀ r ∈ reg.routes, reg.lookup r.srcChainID r.targetChainID r.symbol = .ok r
  targets : ∀ f name id, (name, id) ∈ reg.availableTargets f → name ≠ "" → id ≠ f →
    reg.resolveDestChain name f = .ok id
  sources : ∀ f name id, (name, id) ∈ reg.availableSources f → name ≠ "" → id ≠ f →
    reg.resolveSourceChain name f = .ok id

/-- Rows with names of their own: every symbol reaches its route, and the first name of a chain at
either end of a route between two chains reaches the chain. -/
structure OwnNames (raws : List RawRoute) : Prop where
  tokens : ∀ before r after, raws.map RawRoute.toRoute = before ++ r :: after →
    TokenReached before r
  chains : ∀ r ∈ raws, r.srcChainId ≠ r.targetChainId →
    ChainReached raws r.srcChainId ∧ ChainReached raws r.targetChainId

/-- When every token is reached on its leg. -/
theorem tokens_iff (loaded : ofRaw raws = .ok reg) :
    (∀ r ∈ reg.routes, reg.lookup r.srcChainID r.targetChainID r.symbol = .ok r) ↔
      ∀ before r after, raws.map RawRoute.toRoute = before ++ r :: after →
        TokenReached before r := by
  obtain ⟨separate, isRoutes, _⟩ := ofRaw_ok loaded
  rw [← isRoutes]
  constructor
  · intro found before r after split
    have member : r ∈ reg.routes := by
      rw [split]
      exact List.mem_append_right _ List.mem_cons_self
    exact (lookup_symbol_iff separate split).mp (found r member)
  · intro reached r member
    obtain ⟨before, after, split⟩ := List.append_of_mem member
    exact (lookup_symbol_iff separate split).mpr (reached before r after split)

/-- The names a registry advertises lead back to what they name if and only if its rows have names
of their own. Loading refuses rows with one token or one symbol on a leg, and nothing else. -/
theorem registry_reachable_iff {raws : List RawRoute} {reg : Registry}
    (loaded : ofRaw raws = .ok reg) : Reachable reg ↔ OwnNames raws := by
  have isRoutes := (ofRaw_ok loaded).2.1
  have targets := chains_resolve_iff loaded false (·.srcChainID)
    (·.targetChainID) fun _ => rfl
  have sources := chains_resolve_iff loaded true (·.targetChainID)
    (·.srcChainID) fun _ => rfl
  rw [isRoutes, List.forall_mem_map] at targets sources
  constructor
  · intro reachable
    refine ⟨(tokens_iff loaded).mp reachable.tokens, fun r member apart => ⟨?_, ?_⟩⟩
    · exact sources.mp reachable.sources r member apart.symm
    · exact targets.mp reachable.targets r member apart
  · intro own
    refine ⟨(tokens_iff loaded).mpr own.tokens, ?_, ?_⟩
    · exact targets.mpr fun r member apart => (own.chains r member apart).2
    · exact sources.mpr fun r member apart => (own.chains r member apart.symm).1

/-- A route of USDC from the home chain. -/
def usdcTo (target : String) (id : UInt64) : RawRoute :=
  ⟨"svp_chain", 2517, target, id, "0x732f6ea7afd5edc02e7ba052075dd0780e285489",
    "0x7af80a20da5a4000175eb8babcab73da6ed01f9d", "USDC", 6⟩

/-- Two chains with names of their own. -/
theorem registry_reachable_iff_two :
    ∃ reg, ofRaw [usdcTo "sepolia" 11155111, usdcTo "arbitrum_sepolia" 421614] = .ok reg ∧
      (Reachable reg ↔
        OwnNames [usdcTo "sepolia" 11155111, usdcTo "arbitrum_sepolia" 421614]) := by
  obtain ⟨reg, loaded⟩ := exists_of_isOk (show (ofRaw [usdcTo "sepolia" 11155111,
    usdcTo "arbitrum_sepolia" 421614]).isOk = true by decide +kernel)
  exact ⟨reg, loaded, registry_reachable_iff loaded⟩

/-- The chain a name leads to, if the rows are accepted. -/
def destination (raws : List RawRoute) (name : String) : Option UInt64 :=
  match ofRaw raws with
  | .ok reg => (reg.resolveDestChain name 2517).toOption
  | .error _ => none

/-- The chains listed as targets, if the rows are accepted. -/
def listedTargets (raws : List RawRoute) : List (String × UInt64) :=
  match ofRaw raws with
  | .ok reg => reg.availableTargets 2517
  | .error _ => []

/-- Not every advertised name leads back: of two chains under one name the first is listed, and the
name leads to the second. -/
theorem registry_not_reachable :
    ¬ ∀ (raws : List RawRoute) (reg : Registry), ofRaw raws = .ok reg → Reachable reg := by
  intro all
  obtain ⟨reg, loaded⟩ := exists_of_isOk (show (ofRaw [usdcTo "sepolia" 11155111,
    usdcTo "sepolia" 421614]).isOk = true by decide +kernel)
  have reachable := all _ reg loaded
  have listed : ("sepolia", 11155111) ∈
      listedTargets [usdcTo "sepolia" 11155111, usdcTo "sepolia" 421614] := by
    decide +kernel
  have leads : destination [usdcTo "sepolia" 11155111, usdcTo "sepolia" 421614] "sepolia" =
      some 421614 := by
    decide +kernel
  rw [listedTargets, loaded] at listed
  have resolved := reachable.targets 2517 "sepolia" 11155111 listed (by decide) (by decide)
  rw [destination, loaded] at leads
  simp only [resolved] at leads
  exact absurd leads (by decide)

end Registry

end SvpMcp
