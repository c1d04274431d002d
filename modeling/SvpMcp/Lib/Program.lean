import Mathlib.Data.List.Induction

/-!
# Programs that call operations, and pools of them

A `Program` keeps its calls apart, so that a scheduler may interleave programs between any two.
A `System` says what a call does to the shared world, a `Pool` runs programs under a schedule,
and a program obeys a `Monitor` when every call it can make is allowed.
-/

namespace SvpMcp

/-- A program that calls operations and continues with their replies. -/
inductive Program (Op : Type) (Reply : Op → Type) (α : Type) where
  | done (result : α)
  | call (op : Op) (next : Reply op → Program Op Reply α)

namespace Program

variable {Op α β σ : Type} {Reply : Op → Type}

/-- Run one program, then continue with its result. -/
def bind : Program Op Reply α → (α → Program Op Reply β) → Program Op Reply β
  | .done result, next => next result
  | .call op rest, next => .call op fun reply => (rest reply).bind next

/-- Programs are sequenced. -/
instance : Monad (Program Op Reply) where
  pure := .done
  bind := bind

/-- Nothing follows `done`. -/
theorem bind_done (p : Program Op Reply α) : p.bind .done = p := by
  induction p with
  | done result => rfl
  | call op next ih => exact congrArg (call op) (funext ih)

/-- Sequences associate. -/
theorem bind_bind {γ : Type} (p : Program Op Reply α) (next : α → Program Op Reply β)
    (last : β → Program Op Reply γ) :
    (p.bind next).bind last = p.bind fun value => (next value).bind last := by
  induction p with
  | done result => rfl
  | call op rest ih => exact congrArg (call op) (funext ih)

/-- The laws of a monad hold. -/
instance : LawfulMonad (Program Op Reply) :=
  LawfulMonad.mk' _ (fun p => bind_done p) (fun _ _ => rfl) fun p next last => bind_bind p next last

/-- The program that calls one operation and returns its reply. -/
def perform (op : Op) : Program Op Reply (Reply op) :=
  .call op .done

/-- The program has returned. -/
def isDone : Program Op Reply α → Bool
  | .done _ => true
  | .call _ _ => false

end Program

namespace Program

variable {Op α β ε : Type} {Reply : Op → Type} {allowed : Op → Prop}

/-- Every operation the program can call satisfies a predicate, whatever the replies. -/
def Calls (allowed : Op → Prop) : Program Op Reply α → Prop
  | .done _ => True
  | .call op next => allowed op ∧ ∀ reply, (next reply).Calls allowed

/-- A result the program can return, for some replies. -/
def Yields : Program Op Reply α → α → Prop
  | .done result, value => result = value
  | .call _ next, value => ∃ reply, (next reply).Yields value

/-- A weaker predicate is satisfied too. -/
theorem calls_mono {allowed' : Op → Prop} (weaker : ∀ op, allowed op → allowed' op)
    {p : Program Op Reply α} (calls : p.Calls allowed) : p.Calls allowed' := by
  induction p with
  | done result => exact trivial
  | call op next ih => exact ⟨weaker op calls.1, fun reply => ih reply (calls.2 reply)⟩

/-- The calls of a sequence: those of the first part, and those that follow its results. -/
theorem calls_bind {p : Program Op Reply α} {next : α → Program Op Reply β} :
    (p.bind next).Calls allowed ↔
      p.Calls allowed ∧ ∀ value, p.Yields value → (next value).Calls allowed := by
  induction p with
  | done result => simp [bind, Calls, Yields]
  | call op rest ih =>
    simp only [bind, Calls, Yields, ih, forall_and, and_assoc]
    grind

/-- Sequencing of programs that can fail. -/
theorem calls_bindExcept {p : ExceptT ε (Program Op Reply) α}
    {next : α → ExceptT ε (Program Op Reply) β} :
    Calls allowed (α := Except ε β) (p >>= next : ExceptT ε (Program Op Reply) β) ↔
      Calls allowed (α := Except ε α) p ∧
        ∀ value, Yields (α := Except ε α) p (.ok value) →
          Calls allowed (α := Except ε β) (next value) := by
  refine calls_bind.trans (and_congr_right fun _ => ⟨fun all value => all (.ok value), ?_⟩)
  intro all result returned
  cases result with
  | ok value => exact all value returned
  | error e => exact trivial

end Program

/-- Watches calls: which ones are allowed, and the state after each reply. -/
structure Monitor (Op : Type) (Reply : Op → Type) (σ : Type) where
  /-- The state after a call and its reply. -/
  step : σ → (op : Op) → Reply op → σ
  /-- The calls allowed in a state. -/
  allows : σ → Op → Prop

namespace Monitor

variable {Op α β ε σ : Type} {Reply : Op → Type}

/-- Every call the program can make is allowed, and it returns only with `post`. -/
def Obeys (m : Monitor Op Reply σ) (post : σ → α → Prop) : σ → Program Op Reply α → Prop
  | s, .done result => post s result
  | s, .call op next => m.allows s op ∧ ∀ reply, m.Obeys post (m.step s op reply) (next reply)

variable {m : Monitor Op Reply σ}

variable {p : Program Op Reply α}

/-- A weaker postcondition is obeyed too. -/
theorem obeys_mono {post post' : σ → α → Prop} (weaker : ∀ s result, post s result → post' s result)
    {s : σ} (obeys : m.Obeys post s p) : m.Obeys post' s p := by
  induction p generalizing s with
  | done result => exact weaker s result obeys
  | call op next ih => exact ⟨obeys.1, fun reply => ih reply (obeys.2 reply)⟩

/-- Sequencing: the second program starts in the state the first one ends in. -/
theorem obeys_bind {post : σ → β → Prop} {s : σ} {next : α → Program Op Reply β}
    (obeys : m.Obeys (fun s result => m.Obeys post s (next result)) s p) :
    m.Obeys post s (p.bind next) := by
  induction p generalizing s with
  | done result => exact obeys
  | call op rest ih => exact ⟨obeys.1, fun reply => ih reply (obeys.2 reply)⟩

/-- Sequencing of programs that can fail: a failure ends the whole. -/
theorem obeys_bindExcept {post : σ → Except ε β → Prop} {s : σ}
    {p : ExceptT ε (Program Op Reply) α} {next : α → ExceptT ε (Program Op Reply) β}
    (obeys : m.Obeys (fun s result => match result with
      | .ok value => m.Obeys post s (next value)
      | .error e => post s (.error e)) s p) :
    m.Obeys post s (p >>= next : ExceptT ε (Program Op Reply) β) := by
  apply obeys_bind
  refine obeys_mono ?_ obeys
  intro s result held
  cases result with
  | ok value => exact held
  | error e => exact held

/-- The monitor allows the operation everywhere and does not react to it. -/
def Ignores (m : Monitor Op Reply σ) (op : Op) : Prop :=
  ∀ s, m.allows s op ∧ ∀ reply, m.step s op reply = s

/-- A program of operations that are allowed in a state and do not leave it ends there. -/
theorem obeys_of_quiet {post : σ → α → Prop} {s : σ}
    (quiet : p.Calls fun op => m.allows s op ∧ ∀ reply, m.step s op reply = s)
    (returns : ∀ result, post s result) : m.Obeys post s p := by
  induction p with
  | done result => exact returns result
  | call op next ih =>
    refine ⟨quiet.1.1, ?_⟩
    intro reply
    rw [quiet.1.2 reply]
    exact ih reply (quiet.2 reply)

/-- A program of ignored operations ends in the state it began in. -/
theorem obeys_of_ignored {post : σ → α → Prop} {s : σ} (quiet : p.Calls m.Ignores)
    (returns : ∀ result, post s result) : m.Obeys post s p :=
  obeys_of_quiet (Program.calls_mono (fun _ ignored => ignored s) quiet) returns

/-- A first part of ignored operations, then the rest. -/
theorem obeys_quietBind {post : σ → Except ε β → Prop} {s : σ}
    {p : ExceptT ε (Program Op Reply) α} {next : α → ExceptT ε (Program Op Reply) β}
    (quiet : Program.Calls m.Ignores (α := Except ε α) p) (fails : ∀ e, post s (.error e))
    (rest : ∀ value, m.Obeys post s (next value)) :
    m.Obeys post s (p >>= next : ExceptT ε (Program Op Reply) β) := by
  apply obeys_bindExcept
  apply obeys_of_ignored quiet
  intro result
  cases result with
  | ok value => exact rest value
  | error e => exact fails e

/-- Returning a value after a program adds nothing to obey. -/
theorem obeys_thenPure {s : σ} {p : ExceptT ε (Program Op Reply) α} (f : α → β)
    (first : m.Obeys (fun _ _ => True) s p) :
    m.Obeys (fun _ _ => True) s
      (p >>= fun value => pure (f value) : ExceptT ε (Program Op Reply) β) := by
  apply obeys_bindExcept
  refine obeys_mono ?_ first
  intro _ result _
  cases result <;> exact trivial

end Monitor

/-- What an operation does to the shared world, given the environment's contribution. -/
structure System (World Env Op : Type) (Reply : Op → Type) where
  /-- The reply to an operation and the world it leaves. -/
  perform : World → Env → (op : Op) → Reply op × World

/-- One performed call. -/
structure Event (World Env Op : Type) (Reply : Op → Type) where
  /-- The world before the call. -/
  before : World
  /-- What the environment contributed. -/
  env : Env
  op : Op
  reply : Reply op

namespace Program

variable {World Env Op α β ε : Type} {Reply : Op → Type}

/-- A complete run of a program with no other program running: its calls, the world it leaves
and its result. -/
inductive Exec (sys : System World Env Op Reply) : World → Program Op Reply α →
    List (Event World Env Op Reply) → World → α → Prop where
  | done (w : World) (result : α) : Exec sys w (.done result) [] w result
  | call (w : World) (env : Env) (op : Op) (next : Reply op → Program Op Reply α)
      {events : List (Event World Env Op Reply)} {w' : World} {result : α}
      (rest : Exec sys (sys.perform w env op).2 (next (sys.perform w env op).1) events w' result) :
      Exec sys w (.call op next) (⟨w, env, op, (sys.perform w env op).1⟩ :: events) w' result

variable {sys : System World Env Op Reply}

variable {events : List (Event World Env Op Reply)}

/-- A run of a sequence is a run of the first part and then one of the second. -/
theorem exec_bind {w w' : World} {p : Program Op Reply α} {next : α → Program Op Reply β}
    {result : β} (exec : Exec sys w (p.bind next) events w' result) :
    ∃ first mid value second, events = first ++ second ∧ Exec sys w p first mid value ∧
      Exec sys mid (next value) second w' result := by
  induction p generalizing w events with
  | done value => exact ⟨[], w, value, events, rfl, .done w value, exec⟩
  | call op rest ih =>
    cases exec with
    | call _ env _ _ tail =>
      obtain ⟨first, mid, value, second, split, head, last⟩ := ih _ tail
      exact ⟨_ :: first, mid, value, second, by rw [split]; rfl, .call w env op rest head, last⟩

section Sequence

variable {w w' : World} {p : ExceptT ε (Program Op Reply) α}
  {next : α → ExceptT ε (Program Op Reply) β} {events : List (Event World Env Op Reply)}
  {result : β}

/-- A run of a sequence of programs that can fail: the first part fails and that is all, or it
returns and the second part follows. -/
theorem exec_bindExcept {result : Except ε β}
    (exec : Exec sys w (p >>= next : ExceptT ε (Program Op Reply) β) events w' result) :
    (∃ e, Exec sys w p events w' (.error e) ∧ result = .error e) ∨
      ∃ first mid value second, events = first ++ second ∧ Exec sys w p first mid (.ok value) ∧
        Exec sys mid (next value) second w' result := by
  obtain ⟨first, mid, value, second, split, head, last⟩ := exec_bind exec
  cases value with
  | ok value => exact .inr ⟨first, mid, value, second, split, head, last⟩
  | error e =>
    cases last
    rw [split, List.append_nil]
    exact .inl ⟨e, head, rfl⟩

/-- A run of a sequence that returns is a run of both parts. -/
theorem exec_bind_ok
    (exec : Exec sys w (p >>= next : ExceptT ε (Program Op Reply) β) events w' (.ok result)) :
    ∃ first mid value second, events = first ++ second ∧ Exec sys w p first mid (.ok value) ∧
      Exec sys mid (next value) second w' (.ok result) := by
  rcases exec_bindExcept exec with ⟨e, _, impossible⟩ | both
  · cases impossible
  · exact both

end Sequence

/-- A run of a single call. -/
theorem exec_lift {w w' : World} {op : Op} {result : Except ε (Reply op)}
    (exec : Exec sys w (ExceptT.lift (perform op) : ExceptT ε (Program Op Reply) (Reply op))
      events w' result) :
    ∃ env, events = [⟨w, env, op, (sys.perform w env op).1⟩] ∧ w' = (sys.perform w env op).2 ∧
      result = .ok (sys.perform w env op).1 := by
  cases exec with
  | call _ env _ _ rest =>
    cases rest
    exact ⟨env, rfl, rfl, rfl⟩

/-- A run of the first part and one of the second make a run of the sequence. -/
theorem exec_then {w mid w' : World} {p : Program Op Reply α} {next : α → Program Op Reply β}
    {first second : List (Event World Env Op Reply)} {value : α} {result : β}
    (head : Exec sys w p first mid value) (tail : Exec sys mid (next value) second w' result) :
    Exec sys w (p.bind next) (first ++ second) w' result := by
  induction head with
  | done => exact tail
  | call w env op rest _ ih => exact .call w env op _ (ih tail)

section Completes

variable {w w' : World} {holds : Event World Env Op Reply → Prop}

/-- The program, running alone, returns a value, and something holds of each of its calls. -/
def Completes (sys : System World Env Op Reply) (holds : Event World Env Op Reply → Prop)
    (w : World) (p : ExceptT ε (Program Op Reply) α) (w' : World) (value : α) : Prop :=
  ∃ events, Exec sys w p events w' (.ok value) ∧ ∀ e ∈ events, holds e

/-- What holds of each call may be weakened. -/
theorem Completes.mono {weaker : Event World Env Op Reply → Prop}
    {p : ExceptT ε (Program Op Reply) α} {value : α} (run : Completes sys holds w p w' value)
    (weakens : ∀ e, holds e → weaker e) : Completes sys weaker w p w' value := by
  obtain ⟨events, run, all⟩ := run
  exact ⟨events, run, fun e member => weakens e (all e member)⟩

/-- A sequence returns when both parts do. -/
@[simp]
theorem completes_bind {p : ExceptT ε (Program Op Reply) α}
    {next : α → ExceptT ε (Program Op Reply) β} {result : β} :
    Completes sys holds w (p >>= next) w' result ↔ ∃ mid value,
      Completes sys holds w p mid value ∧ Completes sys holds mid (next value) w' result := by
  constructor
  · rintro ⟨events, run, all⟩
    obtain ⟨first, mid, value, second, rfl, head, tail⟩ := exec_bind_ok run
    exact ⟨mid, value, ⟨first, head, fun e member => all e (List.mem_append_left _ member)⟩,
      second, tail, fun e member => all e (List.mem_append_right _ member)⟩
  · rintro ⟨mid, value, ⟨first, head, before⟩, second, tail, after⟩
    refine ⟨first ++ second, exec_then head tail, ?_⟩
    intro e member
    exact (List.mem_append.mp member).elim (before e) (after e)

/-- A program without calls returns its value and leaves the world. -/
@[simp]
theorem completes_pure {value result : α} :
    Completes (ε := ε) sys holds w (pure value) w' result ↔ w = w' ∧ value = result := by
  constructor
  · rintro ⟨_, run, _⟩
    cases run
    exact ⟨rfl, rfl⟩
  · rintro ⟨rfl, rfl⟩
    exact ⟨[], .done w _, fun _ impossible => nomatch impossible⟩

/-- A program that throws does not return. -/
@[simp]
theorem completes_throw {e : ε} {result : α} :
    Completes sys holds w (throw e : ExceptT ε (Program Op Reply) α) w' result ↔ False := by
  refine ⟨?_, False.elim⟩
  rintro ⟨_, run, _⟩
  cases run

/-- A function of a program's value is returned when the value is. -/
@[simp]
theorem completes_map {p : ExceptT ε (Program Op Reply) α} {f : α → β} {result : β} :
    Completes sys holds w (f <$> p) w' result ↔ ∃ value,
      Completes sys holds w p w' value ∧ f value = result := by
  rw [map_eq_pure_bind, completes_bind]
  simp only [completes_pure]
  constructor
  · rintro ⟨_, value, first, rfl, same⟩
    exact ⟨value, first, same⟩
  · rintro ⟨value, first, same⟩
    exact ⟨w', value, first, rfl, same⟩

/-- A call returns what the system replies. -/
theorem completes_lift {op : Op} {reply : Reply op} :
    Completes (ε := ε) sys holds w (ExceptT.lift (perform op)) w' reply ↔
      ∃ env, holds ⟨w, env, op, reply⟩ ∧ sys.perform w env op = (reply, w') := by
  constructor
  · rintro ⟨_, run, all⟩
    obtain ⟨env, rfl, rfl, same⟩ := exec_lift run
    cases same
    exact ⟨env, all _ List.mem_cons_self, rfl⟩
  · rintro ⟨env, here, performed⟩
    have isReply : (sys.perform w env op).1 = reply := congrArg Prod.fst performed
    have after : (sys.perform w env op).2 = w' := congrArg Prod.snd performed
    subst isReply after
    exact ⟨_, .call w env op _ (.done _ _), by simpa using here⟩

end Completes

/-- Two runs of a program that begin with the same calls are the same run. -/
theorem exec_unique {w mid mid' : World} {p : Program Op Reply α}
    {first first' rest rest' : List (Event World Env Op Reply)} {value value' : α}
    (exec : Exec sys w p first mid value) (exec' : Exec sys w p first' mid' value')
    (same : first ++ rest = first' ++ rest') :
    mid = mid' ∧ value = value' ∧ rest = rest' := by
  induction exec generalizing first' with
  | done w value =>
    cases exec'
    exact ⟨rfl, rfl, same⟩
  | call w env op next tail ih =>
    cases exec' with
    | call _ env' _ _ tail' =>
      have parts := List.cons.inj same
      have sameEnv : env = env' := congrArg Event.env parts.1
      subst sameEnv
      exact ih tail' parts.2

/-- The operations of a run are those the program can call. -/
theorem exec_calls {allowed : Op → Prop} {w w' : World} {p : Program Op Reply α} {result : α}
    (calls : p.Calls allowed) (exec : Exec sys w p events w' result) :
    ∀ e ∈ events, allowed e.op := by
  induction exec with
  | done => simp
  | call w env op next rest ih =>
    intro e member
    rcases List.mem_cons.mp member with here | there
    · rw [here]
      exact calls.1
    · exact ih (calls.2 _) e there

/-- Run a program alone with the given contributions of the environment. -/
def runAlone (sys : System World Env Op Reply) (envs : Nat → Env) : Nat → World →
    Program Op Reply α → List (Event World Env Op Reply) × World × α
  | _, w, .done result => ([], w, result)
  | n, w, .call op next =>
    let (reply, after) := sys.perform w (envs n) op
    let (events, last, result) := runAlone sys envs (n + 1) after (next reply)
    (⟨w, envs n, op, reply⟩ :: events, last, result)

/-- The computed run is a run. -/
theorem exec_runAlone (envs : Nat → Env) (n : Nat) (w : World) (p : Program Op Reply α) :
    Exec sys w p (runAlone sys envs n w p).1 (runAlone sys envs n w p).2.1
      (runAlone sys envs n w p).2.2 := by
  induction p generalizing n w with
  | done result => exact .done w result
  | call op next ih => exact .call w (envs n) op next (ih _ (n + 1) _)

/-- The run sees the environment given. -/
theorem runAlone_env (env : Env) (n : Nat) (w : World) (p : Program Op Reply α) :
    ∀ e ∈ (runAlone sys (fun _ => env) n w p).1, e.env = env := by
  induction p generalizing n w with
  | done result => exact fun e member => absurd member List.not_mem_nil
  | call op next ih =>
    intro e member
    rcases List.mem_cons.mp member with first | later
    · rw [first]
    · exact ih _ (n + 1) _ e later

end Program

/-- A program under way: the calls it has made and what is left of it. -/
structure Thread (World Env Op : Type) (Reply : Op → Type) (α : Type) where
  /-- The calls made so far, oldest first. -/
  history : List (Event World Env Op Reply)
  rest : Program Op Reply α

namespace Thread

variable {World Env Op α σ : Type} {Reply : Op → Type}

/-- A program that has made no call yet. -/
def start (p : Program Op Reply α) : Thread World Env Op Reply α :=
  ⟨[], p⟩

/-- The monitor's state after the calls made so far. -/
def watch (m : Monitor Op Reply σ) (initial : σ) (th : Thread World Env Op Reply α) : σ :=
  th.history.foldl (fun s event => m.step s event.op event.reply) initial

/-- Make the next call of the program, if it has one. -/
def step (sys : System World Env Op Reply) (world : World) (env : Env)
    (th : Thread World Env Op Reply α) : Thread World Env Op Reply α × World :=
  match th.rest with
  | .done _ => (th, world)
  | .call op next =>
    let (reply, after) := sys.perform world env op
    (⟨th.history ++ [⟨world, env, op, reply⟩], next reply⟩, after)

/-- The monitor's state after one more call. -/
theorem watch_step (m : Monitor Op Reply σ) (initial : σ) (sys : System World Env Op Reply)
    (world : World) (env : Env) (history : List (Event World Env Op Reply)) (op : Op)
    (next : Reply op → Program Op Reply α) :
    watch m initial (step sys world env ⟨history, .call op next⟩).1 =
      m.step (watch m initial ⟨history, .call op next⟩) op (sys.perform world env op).1 := by
  simp [watch, step]

/-- What is left of the program obeys the monitor in the state its calls have led to. -/
def Obedient (m : Monitor Op Reply σ) (initial : σ) (post : σ → α → Prop)
    (th : Thread World Env Op Reply α) : Prop :=
  m.Obeys post (th.watch m initial) th.rest

/-- Making a call keeps a thread obedient. -/
theorem obedient_step {m : Monitor Op Reply σ} {initial : σ} {post : σ → α → Prop}
    {th : Thread World Env Op Reply α} (obedient : th.Obedient m initial post)
    (sys : System World Env Op Reply) (world : World) (env : Env) :
    (th.step sys world env).1.Obedient m initial post := by
  obtain ⟨history, rest⟩ := th
  cases rest with
  | done result => exact obedient
  | call op next =>
    rw [Obedient, watch_step]
    exact obedient.2 (sys.perform world env op).1

end Thread

/-- Programs running against one world. -/
structure Pool (World Env Op : Type) (Reply : Op → Type) (α : Type) where
  world : World
  threads : List (Thread World Env Op Reply α)

namespace Pool

variable {World Env Op α σ : Type} {Reply : Op → Type}

/-- A pool of programs that have made no call yet. -/
def start (world : World) (programs : List (Program Op Reply α)) : Pool World Env Op Reply α :=
  ⟨world, programs.map .start⟩

/-- Let the program at one position make its next call. -/
def step (sys : System World Env Op Reply) (pool : Pool World Env Op Reply α)
    (turn : Nat × Env) : Pool World Env Op Reply α :=
  match pool.threads[turn.1]? with
  | none => pool
  | some th =>
    let (th, world) := th.step sys pool.world turn.2
    ⟨world, pool.threads.set turn.1 th⟩

/-- Writing an entry that is already there changes nothing. -/
theorem set_of_getElem? {β : Type} {entries : List β} {i : Nat} {entry : β}
    (found : entries[i]? = some entry) : entries.set i entry = entries := by
  obtain ⟨bound, rfl⟩ := List.getElem?_eq_some_iff.mp found
  exact List.set_getElem_self bound

variable (sys : System World Env Op Reply) (pool : Pool World Env Op Reply α)

/-- A turn does nothing, or it is a call of the program at its position. -/
theorem step_cases (turn : Nat × Env) :
    pool.step sys turn = pool ∨ ∃ history op next,
      pool.threads[turn.1]? = some ⟨history, .call op next⟩ ∧
      pool.step sys turn = ⟨(sys.perform pool.world turn.2 op).2,
        pool.threads.set turn.1
          (Thread.step sys pool.world turn.2 ⟨history, .call op next⟩).1⟩ := by
  unfold step
  cases found : pool.threads[turn.1]? with
  | none => exact .inl rfl
  | some th =>
    obtain ⟨history, rest⟩ := th
    cases rest with
    | done result =>
      have unchanged : pool.threads.set turn.1 ⟨history, .done result⟩ = pool.threads :=
        set_of_getElem? found
      left
      simp only [Thread.step, unchanged]
    | call op next => exact .inr ⟨history, op, next, rfl, rfl⟩

/-- Run a pool under a schedule. -/
def run (schedule : List (Nat × Env)) : Pool World Env Op Reply α :=
  schedule.foldl (step sys) pool

/-- The last turn comes last. -/
theorem run_append (schedule : List (Nat × Env)) (turn : Nat × Env) :
    run sys pool (schedule ++ [turn]) = step sys (run sys pool schedule) turn := by
  simp [run]

/-- What holds of the world and of the thread at each position, and survives every call, holds in
every run. -/
theorem run_invariant_at (kept : World → Prop) (inv : Nat → Thread World Env Op Reply α → Prop)
    (keeps : ∀ world env op, kept world → kept (sys.perform world env op).2)
    (preserved : ∀ i th world env, kept world → inv i th → inv i (Thread.step sys world env th).1)
    (pool : Pool World Env Op Reply α) (begun : kept pool.world)
    (initial : ∀ i th, pool.threads[i]? = some th → inv i th) (schedule : List (Nat × Env)) :
    kept (run sys pool schedule).world ∧
      ∀ i th, (run sys pool schedule).threads[i]? = some th → inv i th := by
  induction schedule using List.reverseRecOn with
  | nil => exact ⟨begun, initial⟩
  | append_singleton schedule turn ih =>
    rw [run_append]
    rcases step_cases sys (run sys pool schedule) turn with same | ⟨_, op, _, found, stepped⟩
    · rw [same]
      exact ih
    · rw [stepped]
      refine ⟨keeps _ _ op ih.1, ?_⟩
      intro i th isThere
      by_cases mine : i = turn.1
      · subst mine
        rw [List.getElem?_set_self (List.getElem?_eq_some_iff.mp found).1] at isThere
        cases isThere
        exact preserved turn.1 _ _ _ ih.1 (ih.2 turn.1 _ found)
      · rw [List.getElem?_set_ne (Ne.symm mine)] at isThere
        exact ih.2 i th isThere

/-- What holds of every starting thread and survives every call holds in every run. -/
theorem run_invariant (inv : Thread World Env Op Reply α → Prop)
    (preserved : ∀ th world env, inv th → inv (Thread.step sys world env th).1)
    (pool : Pool World Env Op Reply α) (initial : ∀ th ∈ pool.threads, inv th)
    (schedule : List (Nat × Env)) : ∀ th ∈ (run sys pool schedule).threads, inv th := by
  have everywhere := run_invariant_at sys (fun _ => True) (fun _ => inv)
    (fun _ _ _ _ => trivial) (fun _ th world env _ held => preserved th world env held) pool
    trivial (fun _ th found => initial th (List.mem_of_getElem? found)) schedule
  intro th member
  obtain ⟨i, found⟩ := List.getElem?_of_mem member
  exact everywhere.2 i th found

/-- Under every schedule, every thread of a pool of obedient programs is obedient. -/
theorem run_obedient {m : Monitor Op Reply σ} {initial : σ} {post : σ → α → Prop} (world : World)
    (programs : List (Program Op Reply α)) (obeys : ∀ p ∈ programs, m.Obeys post initial p)
    (schedule : List (Nat × Env)) :
    ∀ th ∈ (run sys (start world programs) schedule).threads, th.Obedient m initial post := by
  apply run_invariant
  · intro th world env obedient
    exact Thread.obedient_step obedient sys world env
  · intro th member
    obtain ⟨p, inside, rfl⟩ := List.mem_map.mp member
    exact obeys p inside

/-- What the calls of the programs leave alone is the same under every schedule. -/
theorem run_unchanged {allowed : Op → Prop} {view : World → σ} {sys : System World Env Op Reply}
    (keeps : ∀ world env op, allowed op → view (sys.perform world env op).2 = view world)
    {pool : Pool World Env Op Reply α} (calls : ∀ th ∈ pool.threads, th.rest.Calls allowed)
    (schedule : List (Nat × Env)) : view (run sys pool schedule).world = view pool.world := by
  have ahead : ∀ schedule, ∀ th ∈ (run sys pool schedule).threads, th.rest.Calls allowed := by
    apply run_invariant sys _ _ pool calls
    intro th world env calls
    obtain ⟨history, rest⟩ := th
    cases rest with
    | done result => exact calls
    | call op next => exact calls.2 _
  induction schedule using List.reverseRecOn with
  | nil => rfl
  | append_singleton schedule turn ih =>
    rw [run_append]
    rcases step_cases sys (run sys pool schedule) turn with same | ⟨_, _, _, found, stepped⟩
    · rw [same]
      exact ih
    · have allowed := (ahead schedule _ (List.mem_of_getElem? found)).1
      rw [stepped]
      exact (keeps _ _ _ allowed).trans ih

end Pool

end SvpMcp
