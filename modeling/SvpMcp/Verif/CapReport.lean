import SvpMcp.Model.FundsCaps
import SvpMcp.Verif.DayUsage
import SvpMcp.Verif.HumanAmounts

/-!
# The cap report against the check

The rendered text denotes exactly the largest amount `Check` lets through at the same instant. A
usage that is no word of 256 bits is not rendered at all.
-/

namespace SvpMcp

open Calendar MemoryTransferOutStore

variable {a : AssetSymbol} {s : MemoryTransferOutStore} {decimals : Nat} {amount used : Int}

/-- The cap of an owner and symbol in base units, if it is finite. -/
def MemoryTransferOutStore.finiteCap (s : MemoryTransferOutStore) (owner symbol : String) :
    Option Int :=
  (s.cap owner symbol).bind (·.capBase)

/-- A positive amount passes the check exactly when the usage of the day leaves room for it. -/
theorem check_ok_iff (s : MemoryTransferOutStore) (disk : Disk) (now : Time)
    (owner symbol : String) (positive : 0 < amount) :
    (s.check disk now owner symbol (some amount)).1 = .ok () ↔
      ∀ capBase, s.finiteCap owner symbol = some capBase →
        s.usedOn now owner symbol + amount ≤ capBase := by
  have notIgnored : ¬ amount ≤ 0 := by omega
  simp only [check, if_neg notIgnored, rollover_cap, rollover_usedOf, finiteCap]
  cases found : s.cap owner symbol with
  | none => simp [checkAgainst]
  | some c =>
    cases finite : c.capBase with
    | none => simp [checkAgainst, finite]
    | some capBase =>
      simp only [checkAgainst, finite, Option.bind_some, Option.some.injEq, forall_eq']
      by_cases exceeded : s.usedOn now owner symbol + amount > capBase
      · rw [if_pos exceeded]
        exact iff_of_false (by simp) (by omega)
      · rw [if_neg exceeded]
        exact iff_of_true rfl (by omega)

/-- A text denotes a number of base units at some decimals. -/
def DenotesUnits (text : String) (decimals : Nat) (units : Int) : Prop :=
  ∃ n : Numeral, text.toList = n.text ∧ n.value * 10 ^ decimals = units

/-- A report of what is left admits an amount. -/
def Admitted (remaining : String) (decimals : Nat) (amount : Int) : Prop :=
  remaining = "unlimited" ∨ ∃ units, DenotesUnits remaining decimals units ∧ amount ≤ units

/-- A rendered amount denotes it, and nothing else. -/
theorem denotesUnits_shortest {decimals n : Nat} {units : Int} :
    DenotesUnits (String.ofList (Numeral.shortest decimals n).text) decimals units ↔
      units = n := by
  obtain ⟨places, number⟩ := Numeral.shortest_number decimals n
  have value := Numeral.value_eq places number
  constructor
  · rintro ⟨other, isText, isValue⟩
    rw [String.toList_ofList] at isText
    have same : Decimal.Sign.none.text ++ (Numeral.shortest decimals n).text =
        Decimal.Sign.none.text ++ other.text := isText
    rw [← (Numeral.text_inj same).2, value] at isValue
    exact_mod_cast isValue.symm
  · rintro rfl
    exact ⟨_, String.toList_ofList, by exact_mod_cast value⟩

/-- A rendered amount is not the word for no cap. -/
theorem shortest_ne_unlimited (decimals n : Nat) :
    String.ofList (Numeral.shortest decimals n).text ≠ "unlimited" := by
  intro same
  have text : (Numeral.shortest decimals n).text = "unlimited".toList := by
    rw [← same, String.toList_ofList]
  have parts := (Numeral.shortest decimals n).cut_text .none
  rw [show Decimal.Sign.none.text ++ (Numeral.shortest decimals n).text = "unlimited".toList
    from text] at parts
  have whole : (Numeral.shortest decimals n).whole = "unlimited".toList :=
    (congrArg Prod.fst parts).symm
  have digits := (Numeral.shortest decimals n).wholeDigits
  rw [whole] at digits
  exact absurd digits (by decide)

/-- The bound on the amounts of a report. -/
def Moderate (amount : Int) : Prop := amount.natAbs < 2 ^ 255

/-- Amounts of either sign are rendered. -/
theorem humanOut_total (few : decimals ≤ 18) (bounded : amount.natAbs < 2 ^ 256) :
    ∃ text, humanOut amount decimals = .ok text := by
  have fits : LegacyDec.fitsInt amount = true := decide_eq_true bounded
  have places : ¬ (LegacyDec.precision : Int) < decimals := by
    change ¬ (18 : Int) < decimals
    omega
  rw [humanOut, if_pos fits, humanAmount, LegacyDec.ofIntWithPrec, if_neg (by omega),
    if_neg places]
  exact ⟨_, rfl⟩

/-- What can be shown. -/
theorem humanOut_ok_iff (few : decimals ≤ 18) :
    (∃ text, humanOut amount decimals = .ok text) ↔ amount.natAbs < 2 ^ 256 := by
  refine ⟨fun returned => ?_, humanOut_total few⟩
  obtain ⟨text, isText⟩ := returned
  by_contra long
  have unfit : LegacyDec.fitsInt amount = false := decide_eq_false long
  rw [humanOut, unfit] at isText
  cases isText

/-- An amount that is not negative is rendered as its shortest numeral. -/
theorem humanOut_eq {n decimals : Nat} (few : decimals ≤ 18) (bounded : n < 2 ^ 256) :
    humanOut n decimals = .ok (String.ofList (Numeral.shortest decimals n).text) := by
  have fits : LegacyDec.fitsInt n = true := by
    rw [LegacyDec.fitsInt, decide_eq_true_eq, Int.natAbs_natCast]
    exact bounded
  rw [humanOut, if_pos fits, humanAmount_eq few]

/-- The entry of an asset is rendered, and admits exactly the amounts that fit under the cap. -/
theorem capDTO_admits (isDecimals : a.decimals.toInt = decimals) (few : decimals ≤ 18)
    (found : Option SymbolCap) (usedModerate : Moderate used)
    (capModerate : ∀ capBase, found.bind (·.capBase) = some capBase → Moderate capBase) :
    ∃ dto, capDTO a used found = .ok dto ∧ dto.symbol = a.symbol ∧
      ∀ amount, 0 < amount → (Admitted dto.remaining decimals amount ↔
        ∀ capBase, found.bind (·.capBase) = some capBase → used + amount ≤ capBase) := by
  unfold Moderate at usedModerate capModerate
  obtain ⟨usedToday, isUsed⟩ := humanOut_total few (show used.natAbs < 2 ^ 256 by omega)
  unfold capDTO
  rw [isDecimals, isUsed]
  cases finite : found.bind (·.capBase) with
  | none =>
    refine ⟨_, rfl, rfl, ?_⟩
    intro amount _
    exact iff_of_true (.inl rfl) (by simp)
  | some capBase =>
    have capBound := capModerate capBase finite
    obtain ⟨cap, isCap⟩ := humanOut_total few (show capBase.natAbs < 2 ^ 256 by omega)
    -- What is left, clamped at zero.
    obtain ⟨left, isLeft⟩ : ∃ left : Nat,
        (if capBase - used < 0 then 0 else capBase - used) = (left : Int) := by
      by_cases spent : capBase - used < 0
      · exact ⟨0, if_pos spent⟩
      · exact ⟨(capBase - used).toNat, by rw [if_neg spent]; omega⟩
    have leftBound : left < 2 ^ 256 := by
      split at isLeft <;> omega
    have isRemaining := humanOut_eq few leftBound
    simp only [bind, Except.bind, isCap, isLeft, isRemaining]
    refine ⟨_, rfl, rfl, ?_⟩
    intro amount positive
    have admitted : Admitted (String.ofList (Numeral.shortest decimals left).text) decimals amount ↔
        amount ≤ left := by
      constructor
      · rintro (unlimited | ⟨units, denotes, atMost⟩)
        · exact absurd unlimited (shortest_ne_unlimited decimals left)
        · rw [denotesUnits_shortest.mp denotes] at atMost
          exact atMost
      · intro atMost
        exact .inr ⟨left, denotesUnits_shortest.mpr rfl, atMost⟩
    simp only [admitted, Option.some.injEq, forall_eq']
    split at isLeft <;> omega

/-- The usage and the caps of an owner are within the bound. -/
def ModerateStore (s : MemoryTransferOutStore) (owner : String) (assets : List AssetSymbol) :
    Prop :=
  ∀ a ∈ assets, Moderate (s.usedOf owner a.symbol) ∧
    ∀ capBase ∈ s.finiteCap owner a.symbol, Moderate capBase

/-- An entry of the report admits the amounts that fit under the cap of a store. -/
def Reports (s : MemoryTransferOutStore) (now : Time) (owner : String) (a : AssetSymbol)
    (dto : TransferOutCapDTO) : Prop :=
  dto.symbol = a.symbol ∧ ∀ amount, 0 < amount →
    (Admitted dto.remaining a.decimals.toInt.toNat amount ↔
      ∀ capBase, s.finiteCap owner a.symbol = some capBase →
        s.usedOn now owner a.symbol + amount ≤ capBase)

/-- Two stores report alike when they have the usage of the day and the caps in common. -/
structure SameHeadroom (s s' : MemoryTransferOutStore) (now : Time) (owner : String) : Prop where
  used : ∀ symbol, s'.usedOn now owner symbol = s.usedOn now owner symbol
  cap : ∀ symbol, s'.finiteCap owner symbol = s.finiteCap owner symbol

/-- A rollover keeps the headroom of the day. -/
theorem sameHeadroom_rollover (s : MemoryTransferOutStore) (disk : Disk) (now : Time)
    (owner : String) : SameHeadroom s (s.rollover disk now).1 now owner where
  used symbol := s.rollover_usedOn disk rfl owner symbol
  cap symbol := by rw [finiteCap, finiteCap, rollover_cap]

/-- The decimals of the registry are within the precision of a decimal. -/
theorem transferOutAssets_decimals (known : a ∈ transferOutAssets) :
    a.decimals.toInt = (a.decimals.toInt.toNat : Int) ∧ a.decimals.toInt.toNat ≤ 18 := by
  have all : ∀ a ∈ transferOutAssets, 0 ≤ a.decimals.toInt ∧ a.decimals.toInt ≤ 18 := by decide
  have range := all a known
  omega

/-- The turn of an asset, on the rolled-over store. -/
theorem addCapEntry_ok {disk : Disk} {now : Time} {owner : String} {dto : TransferOutCapDTO}
    (out : List TransferOutCapDTO)
    (isEntry : capDTO a (s.usedOn now owner a.symbol) (s.cap owner a.symbol) = .ok dto) :
    addCapEntry now owner (.ok out, s, disk) a =
      (.ok (out ++ [dto]), (s.rollover disk now).1, (s.rollover disk now).2) := by
  have used := s.rollover_usedOf disk now owner a.symbol
  have cap := s.rollover_cap disk now owner a.symbol
  rw [← used, ← cap] at isEntry
  simp only [addCapEntry, usedToday, isEntry]
  rfl

/-- The loop adds an entry for each asset, and keeps the headroom. -/
theorem foldl_addCapEntry (now : Time) (owner : String) (assets : List AssetSymbol)
    (known : ∀ a ∈ assets, a ∈ transferOutAssets) (s : MemoryTransferOutStore) (disk : Disk)
    (out : List TransferOutCapDTO)
    (moderate : ∀ a ∈ assets, Moderate (s.usedOn now owner a.symbol) ∧
      ∀ capBase ∈ s.finiteCap owner a.symbol, Moderate capBase) :
    ∃ caps s' disk', assets.foldl (addCapEntry now owner) (.ok out, s, disk) =
        (.ok (out ++ caps), s', disk') ∧
      List.Forall₂ (Reports s now owner) assets caps ∧ SameHeadroom s s' now owner := by
  induction assets generalizing s disk out with
  | nil => exact ⟨[], s, disk, by rw [List.append_nil]; rfl, .nil, fun _ => rfl, fun _ => rfl⟩
  | cons a rest ih =>
    have same := sameHeadroom_rollover s disk now owner
    have here := moderate a List.mem_cons_self
    obtain ⟨isDecimals, few⟩ := transferOutAssets_decimals (known a List.mem_cons_self)
    obtain ⟨dto, isDto, symbol, admits⟩ :=
      capDTO_admits isDecimals few (s.cap owner a.symbol) here.1 here.2
    have restModerate : ∀ b ∈ rest, Moderate ((s.rollover disk now).1.usedOn now owner b.symbol) ∧
        ∀ capBase ∈ (s.rollover disk now).1.finiteCap owner b.symbol, Moderate capBase := by
      intro b member
      rw [same.used, same.cap]
      exact moderate b (List.mem_cons_of_mem _ member)
    obtain ⟨caps, s', disk', isView, reports, headroom⟩ :=
      ih (fun b member => known b (List.mem_cons_of_mem _ member)) _ (s.rollover disk now).2
        (out ++ [dto]) restModerate
    have reportsHere : List.Forall₂ (Reports s now owner) rest caps := by
      refine reports.imp ?_
      intro b entry rolled
      unfold Reports at rolled
      rw [same.used, same.cap] at rolled
      exact rolled
    refine ⟨dto :: caps, s', disk', ?_, .cons ⟨symbol, admits⟩ reportsHere, ?_⟩
    · rw [List.foldl_cons, addCapEntry_ok out isDto, isView, List.append_assoc,
        List.singleton_append]
    · exact ⟨fun sym => (headroom.used sym).trans (same.used sym),
        fun sym => (headroom.cap sym).trans (same.cap sym)⟩

/-- Today's usage is within the bound when the stored usage is. -/
theorem moderate_usedOn {owner symbol : String} (moderate : Moderate (s.usedOf owner symbol))
    (now : Time) :
    Moderate (s.usedOn now owner symbol) := by
  unfold usedOn
  split
  · exact moderate
  · exact (by decide : (0 : Int).natAbs < 2 ^ 255)

/-- The report of every owner and every list of registered assets has an entry for each asset,
whose remaining amount admits exactly the amounts that pass the check at the same instant, on
the store before and after the report. -/
theorem cap_report_matches_check (s : MemoryTransferOutStore) (disk : Disk) (now : Time)
    (owner : String) (assets : List AssetSymbol) (known : ∀ a ∈ assets, a ∈ transferOutAssets)
    (moderate : ModerateStore s owner assets) :
    ∃ caps s' disk', transferOutCapView s disk now owner assets = (.ok caps, s', disk') ∧
      List.Forall₂ (fun a dto => dto.symbol = a.symbol ∧ ∀ amount, 0 < amount →
        ((s.check disk now owner a.symbol (some amount)).1 = .ok () ↔
          Admitted dto.remaining a.decimals.toInt.toNat amount) ∧
        ((s'.check disk' now owner a.symbol (some amount)).1 = .ok () ↔
          Admitted dto.remaining a.decimals.toInt.toNat amount)) assets caps := by
  obtain ⟨caps, s', disk', isView, reports, headroom⟩ :=
    foldl_addCapEntry now owner assets known s disk [] fun a member =>
      ⟨moderate_usedOn (moderate a member).1 now, (moderate a member).2⟩
  refine ⟨caps, s', disk', isView, reports.imp ?_⟩
  rintro a dto ⟨symbol, admits⟩
  refine ⟨symbol, fun amount positive => ?_⟩
  rw [check_ok_iff s disk now owner a.symbol positive,
    check_ok_iff s' disk' now owner a.symbol positive, headroom.used, headroom.cap,
    admits amount positive]
  exact ⟨Iff.rfl, Iff.rfl⟩

/-- A store in which an owner has lowered the cap of USDC below what has moved out. -/
def loweredStore : MemoryTransferOutStore where
  path := ""
  day := formatDay 0
  caps := Table.set2 ∅ "svp1owner" "usdc" ⟨"usdc", 6, some 500000000⟩
  used := Table.set2 ∅ "svp1owner" "usdc" 600000000

/-- The report on the store with the lowered cap, which admits not one more base unit. -/
theorem cap_report_matches_check_lowered :
    (loweredStore.check ⟨∅, true, true, true⟩ 0 "svp1owner" "usdc" (some 1)).1 ≠ .ok () ∧
    ∃ caps s' disk', transferOutCapView loweredStore ⟨∅, true, true, true⟩ 0 "svp1owner"
        transferOutAssets = (.ok caps, s', disk') ∧
      List.Forall₂ (fun a dto => dto.symbol = a.symbol ∧ ∀ amount, 0 < amount →
        ((loweredStore.check ⟨∅, true, true, true⟩ 0 "svp1owner" a.symbol (some amount)).1 =
            .ok () ↔ Admitted dto.remaining a.decimals.toInt.toNat amount) ∧
        ((s'.check disk' 0 "svp1owner" a.symbol (some amount)).1 = .ok () ↔
          Admitted dto.remaining a.decimals.toInt.toNat amount)) transferOutAssets caps :=
  ⟨by decide +kernel, cap_report_matches_check loweredStore ⟨∅, true, true, true⟩ 0 "svp1owner"
    transferOutAssets (fun _ member => member)
    (by unfold ModerateStore Moderate; decide +kernel)⟩

/-- The entry of an asset is rendered exactly when its usage is a word. -/
theorem capDTO_ok_iff {found : Option SymbolCap} (known : a ∈ transferOutAssets)
    (nonneg : 0 ≤ used)
    (bounded : ∀ capBase, found.bind (·.capBase) = some capBase → 0 < capBase ∧ capBase < 2 ^ 256) :
    (∃ dto, capDTO a used found = .ok dto) ↔ used < 2 ^ 256 := by
  obtain ⟨isDecimals, few⟩ := transferOutAssets_decimals known
  unfold capDTO
  rw [isDecimals]
  constructor
  · rintro ⟨dto, isDto⟩
    obtain ⟨text, isText, _⟩ := bind_eq_ok.mp isDto
    have fits := (humanOut_ok_iff few).mp ⟨text, isText⟩
    omega
  · intro short
    obtain ⟨usedToday, isUsed⟩ := humanOut_total few (show used.natAbs < 2 ^ 256 by omega)
    rw [isUsed]
    cases finite : found.bind (·.capBase) with
    | none => exact ⟨_, rfl⟩
    | some capBase =>
      have bounds := bounded capBase finite
      have left : (if capBase - used < 0 then 0 else capBase - used).natAbs < 2 ^ 256 := by
        split <;> omega
      obtain ⟨cap, isCap⟩ := humanOut_total few (show capBase.natAbs < 2 ^ 256 by omega)
      obtain ⟨remaining, isRemaining⟩ := humanOut_total few left
      simp only [bind, Except.bind, isCap, isRemaining]
      exact ⟨_, rfl⟩

/-- An entry has its asset's symbol. -/
theorem capDTO_symbol {found : Option SymbolCap} {dto : TransferOutCapDTO}
    (isDto : capDTO a used found = .ok dto) : dto.symbol = a.symbol := by
  simp [capDTO] at isDto
  obtain ⟨_, _, isDto⟩ := isDto
  split at isDto
  · cases isDto
    rfl
  · simp at isDto
    obtain ⟨_, _, _, _, rfl⟩ := isDto
    rfl

section Report

variable (now : Time) (owner : String)

/-- An entry that fails ends the view. -/
theorem addCapEntry_error {fault : Fault} (disk : Disk) (out : List TransferOutCapDTO)
    (isEntry : capDTO a (s.usedOn now owner a.symbol) (s.cap owner a.symbol) = .error fault) :
    (addCapEntry now owner (.ok out, s, disk) a).1 = .error fault := by
  have used := s.rollover_usedOf disk now owner a.symbol
  have cap := s.rollover_cap disk now owner a.symbol
  rw [← used, ← cap] at isEntry
  simp only [addCapEntry, usedToday, isEntry]
  rfl

/-- And the view stays failed. -/
theorem foldl_addCapEntry_error {view : CapView} {fault : Fault} (failed : view.1 = .error fault)
    (assets : List AssetSymbol) :
    (assets.foldl (addCapEntry now owner) view).1 = .error fault := by
  induction assets generalizing view with
  | nil => exact failed
  | cons a rest ih =>
    obtain ⟨result, s, disk⟩ := view
    apply ih
    cases failed
    rfl

/-- The report has an entry for each asset exactly when the usage of each of them is a word. -/
theorem foldl_addCapEntry_iff {assets : List AssetSymbol}
    (known : ∀ a ∈ assets, a ∈ transferOutAssets) (s : MemoryTransferOutStore) (disk : Disk)
    (out : List TransferOutCapDTO) (nonneg : ∀ symbol, 0 ≤ s.usedOn now owner symbol)
    (bounded : ∀ symbol capBase, s.finiteCap owner symbol = some capBase →
      0 < capBase ∧ capBase < 2 ^ 256) :
    (∃ caps, (assets.foldl (addCapEntry now owner) (.ok out, s, disk)).1 = .ok caps ∧
        caps.map (·.symbol) = out.map (·.symbol) ++ assets.map (·.symbol)) ↔
      ∀ a ∈ assets, s.usedOn now owner a.symbol < 2 ^ 256 := by
  -- Each turn leaves a store with the same usage and caps.
  induction assets generalizing s disk out with
  | nil =>
    refine ⟨fun _ a member => absurd member List.not_mem_nil, fun _ => ⟨out, rfl, ?_⟩⟩
    rw [List.map_nil, List.append_nil]
  | cons a rest ih =>
    have same := sameHeadroom_rollover s disk now owner
    have here := capDTO_ok_iff (known a List.mem_cons_self) (nonneg a.symbol) (bounded a.symbol)
    rw [List.foldl_cons, List.forall_mem_cons, ← here]
    cases isEntry : capDTO a (s.usedOn now owner a.symbol) (s.cap owner a.symbol) with
    | error fault =>
      have failed := addCapEntry_error now owner disk out isEntry
      rw [foldl_addCapEntry_error now owner failed rest]
      exact iff_of_false (fun returned => nomatch returned) fun both => nomatch both.1
    | ok dto =>
      have tail := ih (fun b member => known b (List.mem_cons_of_mem _ member))
        (s.rollover disk now).1 (s.rollover disk now).2 (out ++ [dto])
        (by simpa only [same.used] using nonneg) (by simpa only [same.cap] using bounded)
      simp only [same.used] at tail
      rw [addCapEntry_ok out isEntry]
      simpa [capDTO_symbol isEntry] using tail

end Report

end SvpMcp
