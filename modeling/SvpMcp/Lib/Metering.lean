import SvpMcp.Lib.Meter
import SvpMcp.Lib.Program

/-!
# Pools that spend from a metered budget

Programs check an amount with one operation and record it with another. Every run of a pool of
them is a run of the meter, so its bound holds under every schedule.
-/

namespace SvpMcp

/-- The operations that check and record amounts against one budget. -/
structure Metering (Op : Type) (Reply : Op → Type) where
  /-- The amount an operation checks. -/
  checks : Op → Option Int
  /-- Whether the reply lets the amount through. -/
  passes : (op : Op) → Reply op → Bool
  /-- The amount an operation records. -/
  records : Op → Option Int

/-- Where a program stands with its amount. -/
inductive Hold where
  /-- Nothing checked yet. -/
  | fresh
  /-- An amount has been checked and not recorded. -/
  | holding (amount : Int)
  /-- The amount has been recorded. -/
  | spent
deriving DecidableEq

namespace Metering

variable {World Env Op α : Type} {Reply : Op → Type}

/-- Check once; record what was checked. -/
def monitor (m : Metering Op Reply) : Monitor Op Reply Hold where
  step s op reply :=
    match m.checks op, m.records op with
    | some amount, _ => if m.passes op reply then .holding amount else s
    | none, some _ => .spent
    | none, none => s
  allows s op :=
    match m.checks op, m.records op with
    | some _, _ => s = .fresh
    | none, some amount => s = .holding amount
    | none, none => True

/-- The monitor does not react to an operation that neither checks nor records. -/
theorem ignores_of_none {m : Metering Op Reply} {op : Op} (unchecked : m.checks op = none)
    (unrecorded : m.records op = none) : m.monitor.Ignores op := by
  intro s
  simp [monitor, unchecked, unrecorded]

/-- The amount a state holds. -/
def held : Hold → Option Int
  | .holding amount => some amount
  | _ => none

/-- The outstanding amount of a thread; one that has returned has none. -/
def slot (m : Metering Op Reply) (th : Thread World Env Op Reply α) : Option Int :=
  if th.rest.isDone then none else held (th.watch m.monitor .fresh)

/-- The number of threads with an outstanding amount. -/
def inFlight (m : Metering Op Reply) (pool : Pool World Env Op Reply α) : Nat :=
  MeterState.inFlight (pool.threads.map m.slot)

/-- The meter's view of a pool. -/
def meter (m : Metering Op Reply) (used : World → Int) (pool : Pool World Env Op Reply α) :
    MeterState :=
  ⟨used pool.world, pool.threads.map m.slot⟩

/-- The system's checks and records act on a total as a meter's do. `inv` holds in every
world of a run and `valid` of every contribution of the environment. -/
structure Governs (m : Metering Op Reply) (sys : System World Env Op Reply)
    (inv : World → Prop) (valid : Env → Prop) (used : World → Int) (budget : Int) : Prop where
  /-- Operations keep the invariant. -/
  keeps : ∀ w env op, inv w → valid env → inv (sys.perform w env op).2
  /-- A check leaves the total; when it passes, the positive amount still fits. -/
  check : ∀ w env op amount, inv w → valid env → m.checks op = some amount →
    used (sys.perform w env op).2 = used w ∧
      (m.passes op (sys.perform w env op).1 = true → 0 < amount ∧ used w + amount ≤ budget)
  /-- A record adds at most the amount. -/
  record : ∀ w env op amount, inv w → valid env → m.checks op = none →
    m.records op = some amount →
    used w ≤ used (sys.perform w env op).2 ∧ used (sys.perform w env op).2 ≤ used w + amount
  /-- Other operations leave the total. -/
  other : ∀ w env op, inv w → valid env → m.checks op = none → m.records op = none →
    used (sys.perform w env op).2 = used w

variable {m : Metering Op Reply} {sys : System World Env Op Reply} {inv : World → Prop}
  {valid : Env → Prop} {used : World → Int} {budget : Int} {post : Hold → α → Prop}

/-- One call of a thread that keeps the discipline is one step of the meter. -/
theorem call_meterStep (governs : m.Governs sys inv valid used budget) {w : World} {env : Env}
    (holds : inv w) (ok : valid env) {slots : List (Option Int)} {i : Nat} {s : Hold} {op : Op}
    (found : slots[i]? = some (held s)) (allowed : m.monitor.allows s op) {next : Option Int}
    (after : next = none ∨ next = held (m.monitor.step s op (sys.perform w env op).1)) :
    MeterState.Step budget ⟨used w, slots⟩
      ⟨used (sys.perform w env op).2, slots.set i next⟩ := by
  cases checked : m.checks op with
  | some amount =>
    have effect := governs.check w env op amount holds ok checked
    have fresh : s = .fresh := by simpa [monitor, checked] using allowed
    rw [effect.1]
    by_cases passed : m.passes op (sys.perform w env op).1 = true
    · have fits := effect.2 passed
      rcases after with gone | kept
      · rw [gone]
        exact .release _ _ _
      · have outstanding : next = some amount := by
          simpa [monitor, checked, passed, held] using kept
        rw [outstanding]
        rw [fresh] at found
        exact .check _ _ _ _ found fits.1 fits.2
    · have nothing : next = none := by
        rcases after with gone | kept
        · exact gone
        · simpa [monitor, checked, passed, fresh, held] using kept
      rw [nothing]
      exact .release _ _ _
  | none =>
    cases recorded : m.records op with
    | some amount =>
      have effect := governs.record w env op amount holds ok checked recorded
      have holding : s = .holding amount := by simpa [monitor, checked, recorded] using allowed
      have nothing : next = none := by
        rcases after with gone | kept
        · exact gone
        · simpa [monitor, checked, recorded, held] using kept
      rw [nothing]
      rw [holding] at found
      exact .record _ _ _ _ _ found effect.1 effect.2
    | none =>
      have effect := governs.other w env op holds ok checked recorded
      rw [effect]
      rcases after with gone | kept
      · rw [gone]
        exact .release _ _ _
      · have same : next = held s := by simpa [monitor, checked, recorded] using kept
        have unchanged : slots.set i next = slots := by
          rw [same]
          exact Pool.set_of_getElem? found
        rw [unchanged]
        exact .idle _

/-- One turn of the pool is one step of the meter, and keeps the invariant. -/
theorem step_meterStep (governs : m.Governs sys inv valid used budget)
    {pool : Pool World Env Op Reply α} (holds : inv pool.world)
    (obedient : ∀ th ∈ pool.threads, th.Obedient m.monitor .fresh post)
    {turn : Nat × Env} (ok : valid turn.2) :
    inv (pool.step sys turn).world ∧
      MeterState.Step budget (m.meter used pool) (m.meter used (pool.step sys turn)) := by
  rcases Pool.step_cases sys pool turn with same | ⟨history, op, next, found, moved⟩
  · rw [same]
    exact ⟨holds, .idle _⟩
  · have mine := obedient _ (List.mem_of_getElem? found)
    rw [moved]
    refine ⟨governs.keeps _ _ _ holds ok, ?_⟩
    simp only [meter, List.map_set]
    apply call_meterStep governs holds ok
      (s := Thread.watch m.monitor .fresh ⟨history, .call op next⟩)
    · rw [List.getElem?_map, found]
      rfl
    · exact mine.1
    · rw [slot]
      split
      · exact .inl rfl
      · right
        rw [Thread.watch_step]

/-- A run of a pool is a run of the meter. -/
theorem run_reaches (governs : m.Governs sys inv valid used budget) {world : World}
    (holds : inv world) {programs : List (Program Op Reply α)}
    (obeys : ∀ p ∈ programs, m.monitor.Obeys post .fresh p) {k : Nat}
    (schedule : List (Nat × Env)) (ok : ∀ turn ∈ schedule, valid turn.2)
    (few : ∀ earlier, earlier <+: schedule →
      m.inFlight (Pool.run sys (Pool.start world programs) earlier) ≤ k) :
    inv (Pool.run sys (Pool.start world programs) schedule).world ∧
      MeterState.Reaches budget k
        (m.meter used (Pool.start world programs : Pool World Env Op Reply α))
        (m.meter used (Pool.run sys (Pool.start world programs) schedule)) := by
  induction schedule using List.reverseRecOn with
  | nil => exact ⟨holds, .refl⟩
  | append_singleton schedule turn ih =>
    have before := ih (fun t member => ok t (List.mem_append_left _ member))
      fun earlier isEarlier => few earlier (isEarlier.trans (List.prefix_append _ _))
    have obedient := Pool.run_obedient sys world programs obeys schedule
    have last := step_meterStep governs before.1 obedient (ok turn (by simp))
    have count := few _ (List.prefix_refl (schedule ++ [turn]))
    rw [Pool.run_append] at count ⊢
    exact ⟨last.1, before.2.tail ⟨last.2, count⟩⟩

/-- With at most `k` amounts outstanding at a time, a run records at most the budget plus
`k - 1` times the headroom at its start. -/
theorem used_le (governs : m.Governs sys inv valid used budget) {world : World}
    (holds : inv world) (room : used world ≤ budget) {programs : List (Program Op Reply α)}
    (obeys : ∀ p ∈ programs, m.monitor.Obeys post .fresh p) {k : Nat}
    (schedule : List (Nat × Env)) (ok : ∀ turn ∈ schedule, valid turn.2)
    (few : ∀ earlier, earlier <+: schedule →
      m.inFlight (Pool.run sys (Pool.start world programs) earlier) ≤ k) :
    used (Pool.run sys (Pool.start world programs) schedule).world ≤
      budget + (k - 1 : Nat) * (budget - used world) := by
  have reached := (run_reaches governs holds obeys schedule ok few).2
  apply MeterState.used_le_of_reaches room _ reached
  intro slot member
  simp only [meter, Pool.start, List.map_map, List.mem_map, Function.comp_apply] at member
  obtain ⟨p, _, rfl⟩ := member
  cases p with
  | done result => rfl
  | call op next => rfl

end Metering

end SvpMcp
