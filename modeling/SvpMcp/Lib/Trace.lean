import SvpMcp.Lib.Program

/-!
# Runs of a system and their past

A `Trace` is a run in which anything may be called at any time; `Since` says that something
happened and nothing has undone it.
-/

namespace SvpMcp

section Past

variable {ε κ : Type}

/-- Some event satisfied a predicate of its own past and itself, and all events after it satisfy
another. -/
def Since (happened : List ε → ε → Prop) (kept : ε → Prop) (events : List ε) : Prop :=
  ∃ earlier e later, events = earlier ++ e :: later ∧ happened earlier e ∧ ∀ e' ∈ later, kept e'

/-- The last event satisfies the predicate. -/
theorem since_last {happened : List ε → ε → Prop} {kept : ε → Prop} {events : List ε} {e : ε}
    (here : happened events e) : Since happened kept (events ++ [e]) :=
  ⟨events, e, [], rfl, here, fun _ member => absurd member List.not_mem_nil⟩

/-- An event that keeps it does not end it. -/
theorem since_append {happened : List ε → ε → Prop} {kept : ε → Prop} {events : List ε} {e : ε}
    (before : Since happened kept events) (keeps : kept e) :
    Since happened kept (events ++ [e]) := by
  obtain ⟨earlier, first, later, split, here, after⟩ := before
  refine ⟨earlier, first, later ++ [e], by rw [split]; simp, here, ?_⟩
  intro e' member
  rcases List.mem_append.mp member with old | new
  · exact after e' old
  · rw [List.mem_singleton.mp new]
    exact keeps

/-- Two events of a run in which a key occurs once do not share it. -/
theorem key_apart {key : ε → Option κ} {events front middle back : List ε} {e e' : ε} {k : κ}
    (once : (events.filterMap key).Nodup) (split : events = front ++ e :: middle ++ e' :: back)
    (keyed : key e = some k) : key e' ≠ some k := by
  intro keyed'
  rw [split] at once
  simp only [List.filterMap_append, List.filterMap_cons, keyed, keyed'] at once
  have inFront : k ∈ front.filterMap key ++ k :: middle.filterMap key := by simp
  exact (List.nodup_append.mp once).2.2 k inFront k List.mem_cons_self rfl

/-- A key that occurs once determines the event and its place. -/
theorem event_unique {key : ε → Option κ} {events earlier earlier' later later' : List ε}
    {e e' : ε} {k : κ} (once : (events.filterMap key).Nodup)
    (split : events = earlier ++ e :: later) (split' : events = earlier' ++ e' :: later')
    (keyed : key e = some k) (keyed' : key e' = some k) :
    earlier = earlier' ∧ e = e' ∧ later = later' := by
  have meet := split.symm.trans split'
  rcases List.append_eq_append_iff.mp meet with ⟨between, front, rest⟩ | ⟨between, front, rest⟩
  · cases between with
    | nil =>
      rw [List.nil_append] at rest
      rw [List.append_nil] at front
      exact ⟨front.symm, List.cons.inj rest⟩
    | cons first middle =>
      have same := List.cons.inj rest
      have apart : events = earlier ++ e :: middle ++ e' :: later' := by
        rw [split, same.2]
        simp
      exact absurd keyed' (key_apart once apart keyed)
  · cases between with
    | nil =>
      rw [List.nil_append] at rest
      rw [List.append_nil] at front
      exact ⟨front, List.cons.inj rest.symm⟩
    | cons first middle =>
      have same := List.cons.inj rest
      have apart : events = earlier' ++ e' :: middle ++ e :: later := by
        rw [split, front, ← same.1]
      exact absurd keyed (key_apart once apart keyed')

end Past

namespace System

variable {World Env Op : Type} {Reply : Op → Type} {sys : System World Env Op Reply}
  {start w : World}

/-- A run of calls from a start to a world, with its events, oldest first. -/
inductive Trace (sys : System World Env Op Reply) (start : World) :
    List (Event World Env Op Reply) → World → Prop where
  | start : Trace sys start [] start
  | step {events : List (Event World Env Op Reply)} {w : World} (run : Trace sys start events w)
      (env : Env) (op : Op) :
      Trace sys start (events ++ [⟨w, env, op, (sys.perform w env op).1⟩]) (sys.perform w env op).2

/-- The run that makes the given calls. -/
def play (sys : System World Env Op Reply) (start : World) (calls : List (Env × Op)) :
    List (Event World Env Op Reply) × World :=
  calls.foldl (fun (events, w) (env, op) =>
    (events ++ [⟨w, env, op, (sys.perform w env op).1⟩], (sys.perform w env op).2)) ([], start)

/-- The computed run is a run. -/
theorem trace_play (sys : System World Env Op Reply) (start : World) (calls : List (Env × Op)) :
    Trace sys start (sys.play start calls).1 (sys.play start calls).2 := by
  induction calls using List.reverseRecOn with
  | nil => exact .start
  | append_singleton calls call ih =>
    rw [play, List.foldl_append]
    exact .step ih call.1 call.2

/-- A run up to an event ends in the world the event starts from, and the event's reply is the
system's. -/
theorem trace_split {earlier later : List (Event World Env Op Reply)}
    {e : Event World Env Op Reply} (run : Trace sys start (earlier ++ e :: later) w) :
    Trace sys start earlier e.before ∧ e.reply = (sys.perform e.before e.env e.op).1 := by
  generalize whole : earlier ++ e :: later = events at run
  induction run generalizing later with
  | start => simp at whole
  | step run env op ih =>
    rcases List.eq_nil_or_concat later with rfl | ⟨middle, last, rfl⟩
    · have ends := List.append_inj' whole rfl
      cases ends.1
      cases ends.2
      exact ⟨run, rfl⟩
    · rw [List.concat_eq_append, ← List.cons_append, ← List.append_assoc] at whole
      exact ih (List.append_inj' whole rfl).1

/-- What holds after an event and is kept by every later one holds at the end of the run. -/
theorem trace_after (holds : World → Prop) {kept : Event World Env Op Reply → Prop}
    (keeps : ∀ v env op, kept ⟨v, env, op, (sys.perform v env op).1⟩ → holds v →
      holds (sys.perform v env op).2)
    {earlier later : List (Event World Env Op Reply)} {e : Event World Env Op Reply}
    (run : Trace sys start (earlier ++ e :: later) w)
    (here : holds (sys.perform e.before e.env e.op).2) (after : ∀ e' ∈ later, kept e') :
    holds w := by
  generalize whole : earlier ++ e :: later = events at run
  induction run generalizing later with
  | start => simp at whole
  | step run env op ih =>
    rcases List.eq_nil_or_concat later with rfl | ⟨middle, last, rfl⟩
    · cases (List.append_inj' whole rfl).2
      exact here
    · rw [List.concat_eq_append] at whole after
      rw [← List.cons_append, ← List.append_assoc] at whole
      have ends := List.append_inj' whole rfl
      rw [List.singleton_inj.mp ends.2] at after
      refine keeps _ env op (after _ (by simp)) (ih ?_ ends.1)
      exact fun e' member => after e' (List.mem_append_left _ member)

end System

end SvpMcp
