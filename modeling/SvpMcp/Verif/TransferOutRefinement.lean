import SvpMcp.Spec.TransferOut
import SvpMcp.Verif.TransferOutFile

/-!
# The transfer-out store refines its history

Every run of calls and restarts leaves a store whose answers are functions of the history alone. The
lazy rollover is the step that turns the table's day into today.
-/

namespace SvpMcp

open Calendar

/-- The usage table holds the usage of the store's date, and nothing was recorded later. An
empty date means that nothing was recorded at all. -/
def UsageReflects (past : TransferOutHistory) (now : Time) (s : MemoryTransferOutStore) : Prop :=
  (s.day = "" ∧ (∀ owner symbol, s.usedOf owner symbol = 0) ∧
      ∀ day owner symbol, past.usedOn day owner symbol = 0) ∨
    ∃ t, s.day = formatDay t ∧ t ≤ now ∧
      (∀ owner symbol, s.usedOf owner symbol = past.usedOn (utcDay t) owner symbol) ∧
      ∀ day owner symbol, utcDay t < day → past.usedOn day owner symbol = 0

/-- The running component reflects the calls made so far, the last of them at or before
`now`. -/
structure Reflects (path : String) (past : TransferOutHistory) (now : Time) (d : DurableStore) :
    Prop where
  /-- The store persists to `path`. -/
  located : d.store.path = path
  serves : d.disk.Serves
  /-- Caps are the latest ones. -/
  caps : ∀ owner symbol, d.store.caps.get2 owner symbol = past.latestCap owner symbol
  finite : d.store.FiniteCaps
  /-- Usage is that of the store's date. -/
  usage : UsageReflects past now d.store
  /-- The file loads to the store in memory. -/
  saved : ∃ s, MemoryTransferOutStore.load path d.disk = .ok s ∧
    MemoryTransferOutStore.Same d.store s

namespace Reflects

variable {path : String} {past : TransferOutHistory} {now : Time} {d : DurableStore}

/-- Writing the store through restores the file clause. -/
theorem of_persist (named : path ≠ "") {s : MemoryTransferOutStore} {disk : Disk}
    (samePath : s.path = path) (serves : disk.Serves) (finite : s.FiniteCaps)
    (caps : ∀ owner symbol, s.caps.get2 owner symbol = past.latestCap owner symbol)
    (usage : UsageReflects past now s) :
    Reflects path past now ⟨s, s.persist disk⟩ := by
  have persisted : s.persist disk =
      disk.replace s.path (String.ofList (Json.print s.snapshot.encode)) := by
    rw [MemoryTransferOutStore.persist, if_neg (by rwa [samePath])]
  refine ⟨samePath, ?_, caps, finite, usage, ?_⟩
  · rw [persisted]
    exact Disk.replace_serves serves _ _
  · have loaded := MemoryTransferOutStore.load_persist (by rwa [samePath]) serves finite
    rwa [samePath] at loaded

/-- Time passing keeps the invariant. -/
theorem mono (reflects : Reflects path past now d) {later : Time} (ordered : now ≤ later) :
    Reflects path past later d := by
  refine ⟨reflects.located, reflects.serves, reflects.caps, reflects.finite, ?_, reflects.saved⟩
  rcases reflects.usage with empty | ⟨t, day, before, today, after⟩
  · exact .inl empty
  · exact .inr ⟨t, day, le_trans before ordered, today, after⟩

/-- A call that records nothing keeps the usage. -/
theorem usage_append {s : MemoryTransferOutStore} (usage : UsageReflects past now s) (t : Time)
    (call : TransferOutCall) (records : ∀ owner symbol, call.recorded owner symbol = 0) :
    UsageReflects (past ++ [(t, call)]) now s := by
  have used : ∀ day owner symbol,
      TransferOutHistory.usedOn (past ++ [(t, call)]) day owner symbol =
        past.usedOn day owner symbol := by
    intro day owner symbol
    rw [TransferOutHistory.usedOn_append, records]
    simp
  unfold UsageReflects
  simp only [used]
  exact usage

/-- A call that neither records nor changes a cap keeps the invariant. -/
theorem append_neutral (reflects : Reflects path past now d) (t : Time) (call : TransferOutCall)
    (records : ∀ owner symbol, call.recorded owner symbol = 0)
    (keeps : ∀ owner symbol before, call.capAfter owner symbol before = before) :
    Reflects path (past ++ [(t, call)]) now d := by
  refine ⟨reflects.located, reflects.serves, ?_, reflects.finite,
    usage_append reflects.usage t call records, reflects.saved⟩
  intro owner symbol
  rw [TransferOutHistory.latestCap_append, keeps]
  exact reflects.caps owner symbol

/-- A store no method can tell apart reflects the same history. -/
theorem of_same (reflects : Reflects path past now d) {s : MemoryTransferOutStore}
    (same : MemoryTransferOutStore.Same d.store s)
    (loads : MemoryTransferOutStore.load path d.disk = .ok s) :
    Reflects path past now ⟨s, d.disk⟩ := by
  have used : ∀ owner symbol, s.usedOf owner symbol = d.store.usedOf owner symbol := by
    intro owner symbol
    rw [MemoryTransferOutStore.usedOf, MemoryTransferOutStore.usedOf, same.used]
  refine ⟨same.path.trans reflects.located, reflects.serves, ?_, ?_, ?_, s, loads, .refl s⟩
  · intro owner symbol
    rw [same.caps]
    exact reflects.caps owner symbol
  · intro owner symbol c found
    rw [same.caps] at found
    exact reflects.finite owner symbol c found
  · unfold UsageReflects
    simp only [used, same.day]
    exact reflects.usage

end Reflects

namespace MemoryTransferOutStore

/-- After a rollover the usage table holds today's usage. -/
theorem rollover_reflects {path : String} {past : TransferOutHistory} {now t : Time}
    {d : DurableStore} (named : path ≠ "") (reflects : Reflects path past now d)
    (ordered : now ≤ t) :
    let rolled := d.store.rollover d.disk t
    Reflects path past t ⟨rolled.1, rolled.2⟩ ∧ rolled.1.day = formatDay t ∧
      (∀ owner symbol, rolled.1.usedOf owner symbol = past.usedOn (utcDay t) owner symbol) ∧
      ∀ day owner symbol, utcDay t < day → past.usedOn day owner symbol = 0 := by
  by_cases current : d.store.day = formatDay t
  · have unchanged : d.store.rollover d.disk t = (d.store, d.disk) := by
      rw [rollover, if_pos current]
    rw [unchanged]
    refine ⟨reflects.mono ordered, current, ?_⟩
    rcases reflects.usage with ⟨empty, -⟩ | ⟨t', day, -, today, after⟩
    · exact absurd (current.symm.trans empty) (formatDay_ne_empty t)
    · have sameDay : utcDay t' = utcDay t :=
        (formatDay_eq_iff t' t).mp (day.symm.trans current)
      rw [← sameDay]
      exact ⟨today, after⟩
  · have renewed : d.store.rollover d.disk t =
        ({ d.store with day := formatDay t, used := ∅ },
          persist { d.store with day := formatDay t, used := ∅ } d.disk) := by
      rw [rollover, if_neg current]
    rw [renewed]
    have nothingToday : ∀ owner symbol, past.usedOn (utcDay t) owner symbol = 0 := by
      intro owner symbol
      rcases reflects.usage with ⟨-, -, never⟩ | ⟨t', day, before, -, after⟩
      · exact never _ owner symbol
      · have earlier : utcDay t' ≤ utcDay t := utcDay_mono (le_trans before ordered)
        have different : utcDay t' ≠ utcDay t := by
          intro same
          exact current (day.trans ((formatDay_eq_iff t' t).mpr same))
        exact after _ owner symbol (lt_of_le_of_ne earlier different)
    have nothingLater : ∀ day owner symbol, utcDay t < day →
        past.usedOn day owner symbol = 0 := by
      intro day owner symbol later
      rcases reflects.usage with ⟨-, -, never⟩ | ⟨t', -, before, -, after⟩
      · exact never _ owner symbol
      · have earlier : utcDay t' ≤ utcDay t := utcDay_mono (le_trans before ordered)
        exact after _ owner symbol (lt_of_le_of_lt earlier later)
    have zero : ∀ owner symbol,
        usedOf { d.store with day := formatDay t, used := ∅ } owner symbol =
          past.usedOn (utcDay t) owner symbol := by
      intro owner symbol
      rw [nothingToday]
      rfl
    refine ⟨?_, rfl, zero, nothingLater⟩
    exact Reflects.of_persist named reflects.located reflects.serves reflects.finite reflects.caps
      (.inr ⟨t, rfl, le_refl t, zero, nothingLater⟩)

end MemoryTransferOutStore

namespace DurableStore

open MemoryTransferOutStore

variable {path : String} {past : TransferOutHistory} {now t : Time} {d : DurableStore}

/-- Setting a cap keeps the invariant. -/
theorem setCap_reflects (named : path ≠ "") (reflects : Reflects path past now d)
    (ordered : now ≤ t) (owner : String) (c : SymbolCap)
    (finite : ∃ capBase, c.capBase = some capBase) :
    let after := d.store.setCap d.disk owner c
    Reflects path (past ++ [(t, .setCap owner c)]) t ⟨after.1, after.2⟩ := by
  refine Reflects.of_persist (s := { d.store with caps := d.store.caps.set2 owner c.symbol c })
    named reflects.located reflects.serves ?_ ?_
    (Reflects.usage_append (reflects.mono ordered).usage t _ fun _ _ => rfl)
  · intro o s stored found
    change (d.store.caps.set2 owner c.symbol c).get2 o s = some stored at found
    rw [Table.get2_set2] at found
    split at found
    · cases found
      exact finite
    · exact reflects.finite o s stored found
  · intro o s
    change (d.store.caps.set2 owner c.symbol c).get2 o s = _
    rw [Table.get2_set2, TransferOutHistory.latestCap_append, reflects.caps]
    simp only [TransferOutCall.capAfter, eq_comm]

/-- Removing a cap keeps the invariant. -/
theorem setUnlimited_reflects (named : path ≠ "") (reflects : Reflects path past now d)
    (ordered : now ≤ t) (owner symbol : String) :
    let after := d.store.setUnlimited d.disk owner symbol
    Reflects path (past ++ [(t, .setUnlimited owner symbol)]) t ⟨after.1, after.2⟩ := by
  refine Reflects.of_persist (s := { d.store with caps := d.store.caps.delete2 owner symbol })
    named reflects.located reflects.serves ?_ ?_
    (Reflects.usage_append (reflects.mono ordered).usage t _ fun _ _ => rfl)
  · intro o s stored found
    change (d.store.caps.delete2 owner symbol).get2 o s = some stored at found
    rw [Table.get2_delete2] at found
    split at found
    · cases found
    · exact reflects.finite o s stored found
  · intro o s
    change (d.store.caps.delete2 owner symbol).get2 o s = _
    rw [Table.get2_delete2, TransferOutHistory.latestCap_append, reflects.caps]
    simp only [TransferOutCall.capAfter, eq_comm]

/-- Recording a positive amount keeps the invariant. -/
theorem record_reflects (named : path ≠ "") (reflects : Reflects path past now d)
    (ordered : now ≤ t) (owner symbol : String) (a : Int) (positive : 0 < a) :
    let after := d.store.record d.disk t owner symbol (some a)
    Reflects path (past ++ [(t, .record owner symbol (some a))]) t ⟨after.1, after.2⟩ := by
  obtain ⟨rolled, day, today, later⟩ := rollover_reflects named reflects ordered
  have unfolded : d.store.record d.disk t owner symbol (some a) =
      let r := d.store.rollover d.disk t
      let s := { r.1 with used := r.1.used.set2 owner symbol (r.1.usedOf owner symbol + a) }
      (s, s.persist r.2) := by
    simp only [record]
    rw [if_neg (by omega)]
  rw [unfolded]
  generalize d.store.rollover d.disk t = r at rolled day today later
  -- Only the recorded key of the usage table changes, by the recorded amount.
  have added : ∀ o s,
      usedOf { r.1 with used := r.1.used.set2 owner symbol (r.1.usedOf owner symbol + a) } o s =
        TransferOutHistory.usedOn (past ++ [(t, .record owner symbol (some a))]) (utcDay t) o
          s := by
    intro o s
    rw [TransferOutHistory.usedOn_append, if_pos rfl, ← today o s]
    simp only [usedOf, Table.get2_set2, TransferOutCall.recorded]
    by_cases same : o = owner ∧ s = symbol
    · obtain ⟨rfl, rfl⟩ := same
      simp [positive]
    · have different : ¬(owner = o ∧ symbol = s ∧ 0 < a) := by
        intro equal
        exact same ⟨equal.1.symm, equal.2.1.symm⟩
      rw [if_neg same, if_neg different, Int.add_zero]
  have nothingLater : ∀ day o s, utcDay t < day →
      TransferOutHistory.usedOn (past ++ [(t, .record owner symbol (some a))]) day o s = 0 := by
    intro day o s after
    rw [TransferOutHistory.usedOn_append, if_neg (by omega), later day o s after, Int.add_zero]
  refine Reflects.of_persist
    (s := { r.1 with used := r.1.used.set2 owner symbol (r.1.usedOf owner symbol + a) })
    named rolled.located rolled.serves rolled.finite ?_ ?_
  · intro o s
    rw [TransferOutHistory.latestCap_append]
    exact rolled.caps o s
  · exact .inr ⟨t, day, le_refl t, added, nothingLater⟩

/-- The comparison fails exactly when a finite cap is exceeded. -/
theorem checkAgainst_fails_iff (found : Option SymbolCap) (used a : Int) :
    (∃ e, checkAgainst found used a = .error e) ↔
      ∃ c capBase, found = some c ∧ c.capBase = some capBase ∧ capBase < used + a := by
  cases found with
  | none => simp [checkAgainst]
  | some c =>
    cases amount : c.capBase with
    | none => simp [checkAgainst, amount]
    | some capBase =>
      by_cases exceeded : used + a > capBase
      · simp [checkAgainst, amount, exceeded]
      · simp [checkAgainst, amount, exceeded]

/-- What `Check` answers on a component that reflects its history, and what it leaves. -/
theorem check_reflects (named : path ≠ "") (reflects : Reflects path past now d)
    (ordered : now ≤ t) (owner symbol : String) (amt : Option Int) :
    let after := d.store.check d.disk t owner symbol amt
    Reflects path past t ⟨after.2.1, after.2.2⟩ ∧
      TransferOutReply.checked after.1 = TransferOutCall.answer (past.latestCap owner symbol)
        (past.usedOn (utcDay t) owner symbol) (.check owner symbol amt) := by
  cases amt with
  | none => exact ⟨reflects.mono ordered, rfl⟩
  | some a =>
    by_cases positive : 0 < a
    · obtain ⟨rolled, -, today, -⟩ := rollover_reflects named reflects ordered
      have capSame := rolled.caps owner symbol
      simp only [check, TransferOutCall.answer, if_neg (show ¬a ≤ 0 by omega)]
      refine ⟨rolled, ?_⟩
      rw [← today, ← capSame]
      rfl
    · simp only [check, TransferOutCall.answer, if_pos (show a ≤ 0 by omega)]
      exact ⟨reflects.mono ordered, trivial⟩

/-- Every call succeeds, keeps the invariant, and answers what the history says. -/
theorem step_reflects (named : path ≠ "") (reflects : Reflects path past now d)
    (ordered : now ≤ t) (call : TransferOutCall) (finite : call.Finite) :
    ∃ reply d', d.step t call = .ok (reply, d') ∧ Reflects path (past ++ [(t, call)]) t d' ∧
      ∀ owner symbol, call.concerns owner symbol = true →
        reply = call.answer (past.latestCap owner symbol)
          (past.usedOn (utcDay t) owner symbol) := by
  cases call with
  | setCap owner c =>
    exact ⟨_, _, rfl, setCap_reflects named reflects ordered owner c finite, fun _ _ _ => rfl⟩
  | setUnlimited owner symbol =>
    exact ⟨_, _, rfl, setUnlimited_reflects named reflects ordered owner symbol,
      fun _ _ _ => rfl⟩
  | record owner symbol amt =>
    refine ⟨_, _, rfl, ?_, fun _ _ _ => rfl⟩
    cases amt with
    | none => exact (reflects.mono ordered).append_neutral t _ (fun _ _ => rfl) fun _ _ _ => rfl
    | some a =>
      by_cases positive : 0 < a
      · exact record_reflects named reflects ordered owner symbol a positive
      · have ignored : d.store.record d.disk t owner symbol (some a) = (d.store, d.disk) := by
          simp only [record]
          rw [if_pos (by omega)]
        change Reflects path _ t ⟨(d.store.record d.disk t owner symbol (some a)).1,
          (d.store.record d.disk t owner symbol (some a)).2⟩
        rw [ignored]
        apply (reflects.mono ordered).append_neutral t
        · intro o s
          rw [TransferOutCall.recorded, if_neg (fun recorded => positive recorded.2.2)]
        · exact fun _ _ _ => rfl
  | check owner symbol amt =>
    obtain ⟨kept, answered⟩ := check_reflects named reflects ordered owner symbol amt
    refine ⟨_, _, rfl, kept.append_neutral t _ (fun _ _ => rfl) fun _ _ _ => rfl, ?_⟩
    intro o s same
    simp only [TransferOutCall.concerns, Bool.and_eq_true, decide_eq_true_eq] at same
    rw [← same.1, ← same.2]
    exact answered
  | used owner symbol =>
    obtain ⟨rolled, -, today, -⟩ := rollover_reflects named reflects ordered
    refine ⟨_, _, rfl, rolled.append_neutral t _ (fun _ _ => rfl) fun _ _ _ => rfl, ?_⟩
    intro o s same
    simp only [TransferOutCall.concerns, Bool.and_eq_true, decide_eq_true_eq] at same
    rw [← same.1, ← same.2]
    exact congrArg TransferOutReply.amount (today owner symbol)
  | cap owner symbol =>
    refine ⟨_, _, rfl, (reflects.mono ordered).append_neutral t _ (fun _ _ => rfl)
      fun _ _ _ => rfl, ?_⟩
    intro o s same
    simp only [TransferOutCall.concerns, Bool.and_eq_true, decide_eq_true_eq] at same
    rw [← same.1, ← same.2]
    exact congrArg TransferOutReply.cap (reflects.caps owner symbol)
  | restart =>
    obtain ⟨s, loads, same⟩ := reflects.saved
    refine ⟨.done, ⟨s, d.disk⟩, ?_, ?_, fun _ _ never => by cases never⟩
    · rw [step, reflects.located, loads]
    · exact ((reflects.mono ordered).of_same same loads).append_neutral t _ (fun _ _ => rfl)
        fun _ _ _ => rfl

/-- A whole run succeeds and reflects all its calls. -/
theorem run_reflects (named : path ≠ "") (rest : TransferOutHistory)
    (reflects : Reflects path past now d) (later : ∀ event ∈ rest, now ≤ event.1)
    (proper : rest.Proper) :
    ∃ d', d.run rest = .ok d' ∧ ∀ t, now ≤ t → (∀ event ∈ rest, event.1 ≤ t) →
      Reflects path (past ++ rest) t d' := by
  induction rest generalizing past now d with
  | nil =>
    refine ⟨d, rfl, ?_⟩
    intro t ordered _
    rw [List.append_nil]
    exact reflects.mono ordered
  | cons event rest ih =>
    obtain ⟨t, call⟩ := event
    obtain ⟨ordered, finite⟩ := proper
    rw [List.map_cons, List.pairwise_cons] at ordered
    have inOrder : now ≤ t := later (t, call) List.mem_cons_self
    obtain ⟨reply, next, stepped, kept, -⟩ :=
      step_reflects named reflects inOrder call (finite (t, call) List.mem_cons_self)
    have restLater : ∀ event ∈ rest, t ≤ event.1 := by
      intro event member
      exact ordered.1 event.1 (List.mem_map_of_mem member)
    obtain ⟨final, ran, reflected⟩ := ih kept restLater
      ⟨ordered.2, fun event member => finite event (List.mem_cons_of_mem _ member)⟩
    refine ⟨final, ?_, ?_⟩
    · rw [run, stepped]
      exact ran
    · intro bound first bounded
      rw [List.append_cons]
      exact reflected bound (bounded (t, call) List.mem_cons_self)
        fun event member => bounded event (List.mem_cons_of_mem _ member)

/-- A store started without a file reflects the empty history. -/
theorem new_reflects (named : path ≠ "") {disk : Disk} (serves : disk.Serves)
    (absent : disk.files.get path = none) (start : Time) :
    Reflects path [] start ⟨MemoryTransferOutStore.new path, disk⟩ := by
  refine ⟨rfl, serves, fun _ _ => rfl, ?_, .inl ⟨rfl, fun _ _ => rfl, fun _ _ _ => rfl⟩,
    MemoryTransferOutStore.new path, ?_, .refl _⟩
  · intro owner symbol c found
    cases found
  · rw [MemoryTransferOutStore.load, if_neg named, absent]

/-- Every proper history runs to a component that reflects it at its last instant. -/
theorem run_new_reflects (named : path ≠ "") {disk : Disk} (serves : disk.Serves)
    (absent : disk.files.get path = none) (proper : past.Proper)
    (recent : ∀ event ∈ past, event.1 ≤ now) :
    ∃ d, run ⟨MemoryTransferOutStore.new path, disk⟩ past = .ok d ∧ Reflects path past now d := by
  cases past with
  | nil => exact ⟨_, rfl, new_reflects named serves absent now⟩
  | cons event rest =>
    have later : ∀ other ∈ event :: rest, event.1 ≤ other.1 := by
      have ordered := proper.ordered
      rw [List.map_cons, List.pairwise_cons] at ordered
      intro other member
      rcases List.mem_cons.mp member with rfl | inRest
      · exact le_refl _
      · exact ordered.1 other.1 (List.mem_map_of_mem inRest)
    obtain ⟨d, ran, reflected⟩ := run_reflects named (event :: rest)
      (new_reflects named serves absent event.1) later proper
    exact ⟨d, ran, reflected now (recent event List.mem_cons_self) recent⟩

end DurableStore

/-- After any run of calls and restarts from an empty store, at any later instant: usage is
the sum recorded today, a check fails exactly when a positive amount exceeds the finite cap
set last, caps are those set last whatever day it is, and every call about an owner's symbol
is answered as after any other run with the same calls about that symbol. -/
theorem transferOut_refines_history (path : String) (disk : Disk) (past : TransferOutHistory)
    (now : Time) (named : path ≠ "") (serves : disk.Serves)
    (absent : disk.files.get path = none) (proper : past.Proper)
    (recent : ∀ event ∈ past, event.1 ≤ now) :
    ∃ d, DurableStore.run ⟨MemoryTransferOutStore.new path, disk⟩ past = .ok d ∧
      (∀ owner symbol, (d.store.usedToday d.disk now owner symbol).1 =
        past.usedOn (utcDay now) owner symbol) ∧
      (∀ owner symbol amt, (∃ e, (d.store.check d.disk now owner symbol amt).1 = .error e) ↔
        ∃ a, amt = some a ∧ 0 < a ∧ past.Exceeds (utcDay now) owner symbol a) ∧
      (∀ owner symbol, d.store.cap owner symbol = past.latestCap owner symbol) ∧
      ∀ past' : TransferOutHistory, past'.Proper → (∀ event ∈ past', event.1 ≤ now) →
        ∀ owner symbol, past'.about owner symbol = past.about owner symbol →
          ∃ d', DurableStore.run ⟨MemoryTransferOutStore.new path, disk⟩ past' = .ok d' ∧
            ∀ call : TransferOutCall, call.concerns owner symbol = true → call.Finite →
              ∃ reply after after', d.step now call = .ok (reply, after) ∧
                d'.step now call = .ok (reply, after') := by
  obtain ⟨d, ran, reflects⟩ := DurableStore.run_new_reflects named serves absent proper recent
  refine ⟨d, ran, ?_, ?_, reflects.caps, ?_⟩
  · intro owner symbol
    obtain ⟨-, -, today, -⟩ :=
      MemoryTransferOutStore.rollover_reflects named reflects (le_refl now)
    exact today owner symbol
  · intro owner symbol amt
    obtain ⟨-, answered⟩ :=
      DurableStore.check_reflects named reflects (le_refl now) owner symbol amt
    cases amt with
    | none => simp [MemoryTransferOutStore.check]
    | some a =>
      simp only [TransferOutCall.answer, TransferOutReply.checked.injEq] at answered
      rw [answered]
      by_cases positive : 0 < a
      · rw [if_neg (show ¬a ≤ 0 by omega), DurableStore.checkAgainst_fails_iff]
        constructor
        · intro exceeded
          exact ⟨a, rfl, positive, exceeded⟩
        · rintro ⟨a', same, -, exceeded⟩
          cases same
          exact exceeded
      · rw [if_pos (show a ≤ 0 by omega)]
        constructor
        · rintro ⟨e, failed⟩
          cases failed
        · rintro ⟨a', same, positive', -⟩
          cases same
          exact absurd positive' positive
  · intro past' proper' recent' owner symbol same
    obtain ⟨d', ran', reflects'⟩ :=
      DurableStore.run_new_reflects named serves absent proper' recent'
    refine ⟨d', ran', ?_⟩
    intro call concerned finite
    obtain ⟨reply, after, stepped, -, answer⟩ :=
      DurableStore.step_reflects named reflects (le_refl now) call finite
    obtain ⟨reply', after', stepped', -, answer'⟩ :=
      DurableStore.step_reflects named reflects' (le_refl now) call finite
    -- Both answers are the same function of the common part of the two histories.
    have caps : past'.latestCap owner symbol = past.latestCap owner symbol := by
      rw [← TransferOutHistory.latestCap_about past', same, TransferOutHistory.latestCap_about]
    have used : past'.usedOn (utcDay now) owner symbol = past.usedOn (utcDay now) owner symbol := by
      rw [← TransferOutHistory.usedOn_about past', same, TransferOutHistory.usedOn_about]
    have replies : reply' = reply := by
      rw [answer owner symbol concerned, answer' owner symbol concerned, caps, used]
    rw [replies] at stepped'
    exact ⟨reply, after, after', stepped, stepped'⟩

/-- A cap of 100 set on day zero and 60 recorded on day one, with a restart after each: on day
one 60 are used and a request of 41 is refused. -/
theorem transferOut_refines_history_restarts :
    ∃ d, DurableStore.run ⟨MemoryTransferOutStore.new "caps.json", ⟨∅, true, true, true⟩⟩
        [(0, .setCap "svp1" ⟨"usdc", 6, some 100⟩), (1, .restart),
          (nanosPerDay, .record "svp1" "usdc" (some 60)), (nanosPerDay, .restart)] = .ok d ∧
      (d.store.usedToday d.disk (nanosPerDay + 5) "svp1" "usdc").1 = 60 ∧
      ∃ e, (d.store.check d.disk (nanosPerDay + 5) "svp1" "usdc" (some 41)).1 = .error e := by
  obtain ⟨d, ran, used, checked, -⟩ := transferOut_refines_history "caps.json"
    ⟨∅, true, true, true⟩
    [(0, .setCap "svp1" ⟨"usdc", 6, some 100⟩), (1, .restart),
      (nanosPerDay, .record "svp1" "usdc" (some 60)), (nanosPerDay, .restart)]
    (nanosPerDay + 5) (by decide) ⟨rfl, rfl, rfl⟩ rfl
    ⟨by decide, by simp [TransferOutCall.Finite]⟩ (by decide)
  refine ⟨d, ran, ?_, ?_⟩
  · rw [used]
    decide
  · apply (checked "svp1" "usdc" (some 41)).mpr
    exact ⟨41, rfl, by decide, ⟨"usdc", 6, some 100⟩, 100, rfl, rfl, by decide⟩

end SvpMcp
