import SvpMcp.Lib.Oracle
import SvpMcp.Verif.SignedBroadcast

/-!
# Handlers in surroundings that stand still

While neither the clock nor a node moves, a handler that changes no store is a function of the world
and the environment, put together from the results of its steps.
-/

namespace SvpMcp

open Calendar Handler Program

variable {α β : Type} {deps : Deps} {w : World} {env later : Env} {h : Handler α}
  {next : α → Handler β} {value : α} {op : ServerOp}

namespace Handler

/-- What a handler returns when every operation is performed in one world and one environment. -/
def resultIn (deps : Deps) (w : World) (env : Env) (h : Handler α) : Except Fault α :=
  answerExcept (fun op => ((server deps).perform w env op).1) h

/-- A sequence passes its first result on. -/
theorem resultIn_sequence (deps : Deps) (w : World) (env : Env) (h : Handler α)
    (next : α → Handler β) :
    resultIn deps w env (h >>= next) =
      resultIn deps w env h >>= fun value => resultIn deps w env (next value) :=
  answer_bindExcept _ h next

/-- A value is returned as it is. -/
@[simp]
theorem resultIn_pure : resultIn deps w env (pure value : Handler α) = .ok value :=
  rfl

/-- A sequence returns when both parts do. -/
@[simp]
theorem resultIn_bind {result : β} :
    resultIn deps w env (h >>= next) = .ok result ↔
      ∃ value, resultIn deps w env h = .ok value ∧
        resultIn deps w env (next value) = .ok result := by
  rw [resultIn_sequence, bind_eq_ok]

/-- A function of a handler's value is returned when the value is. -/
@[simp]
theorem resultIn_map {f : α → β} {result : β} :
    resultIn deps w env (f <$> h) = .ok result ↔
      ∃ value, resultIn deps w env h = .ok value ∧ f value = result := by
  rw [map_eq_pure_bind, resultIn_bind]
  simp only [resultIn_pure, Except.ok.injEq]

/-- A failure is returned as it is. -/
@[simp]
theorem resultIn_fail {e : Err} :
    resultIn deps w env (fail e : Handler α) = .error (.error e) :=
  rfl

/-- Behind a step that returns the rest decides. -/
theorem resultIn_step (first : resultIn deps w env h = .ok value) :
    resultIn deps w env (h >>= next) = resultIn deps w env (next value) := by
  rw [resultIn_sequence, first]
  rfl

/-- A step that fails ends the handler. -/
theorem resultIn_fails {fault : Fault} (first : resultIn deps w env h = .error fault) :
    resultIn deps w env (h >>= next) = .error fault := by
  rw [resultIn_sequence, first]
  rfl

/-- A loop ends at the first turn that fails. -/
theorem resultIn_loop_fails {loop : List β → α → Handler α} {turn : β → α → Handler α}
    (isEmpty : ∀ state, loop [] state = pure state)
    (isTurn : ∀ item rest state, loop (item :: rest) state = turn item state >>= loop rest)
    {before rest : List β} {item : β} {start state : α} {fault : Fault}
    (done : resultIn deps w env (loop before start) = .ok state)
    (fails : resultIn deps w env (turn item state) = .error fault) :
    resultIn deps w env (loop (before ++ item :: rest) start) = .error fault := by
  induction before generalizing start with
  | nil =>
    rw [isEmpty] at done
    cases done
    rw [List.nil_append, isTurn]
    exact resultIn_fails fails
  | cons first before ih =>
    rw [isTurn] at done
    obtain ⟨next, isNext, done⟩ := resultIn_bind.mp done
    rw [List.cons_append, isTurn, resultIn_step isNext]
    exact ih done

/-- First steps with the same result lead to the same. -/
theorem resultIn_first {h h' : Handler α} (same : resultIn deps w env h = resultIn deps w env h')
    (next : α → Handler β) :
    resultIn deps w env (h >>= next) = resultIn deps w env (h' >>= next) := by
  rw [resultIn_sequence, resultIn_sequence, same]

/-- A step that returns, and a rest that returns from there. -/
theorem exists_resultIn_bind (first : resultIn deps w env h = .ok value)
    (rest : ∃ result, resultIn deps w env (next value) = .ok result) :
    ∃ result, resultIn deps w env (h >>= next) = .ok result := by
  rw [resultIn_step first]
  exact rest

/-- A call returns the reply of the server. -/
@[simp]
theorem resultIn_call (op : ServerOp) :
    resultIn (α := no_index (Reply op)) deps w env (call op) =
      .ok ((server deps).perform w env op).1 :=
  rfl

/-- A result is returned when it is one. -/
@[simp]
theorem resultIn_ofResult {result : Except Err α} :
    resultIn deps w env (ofResult result) = .ok value ↔ result = .ok value := by
  cases result with
  | ok found =>
    constructor
    · intro same
      rw [Except.ok.inj same]
    · intro same
      rw [Except.ok.inj same]
      rfl
  | error e => exact iff_of_false error_ne_ok error_ne_ok

/-- The result of a call is returned as it is. -/
@[simp]
theorem resultIn_ofCall (result : Except Fault α) :
    resultIn deps w env (ofCall result) = result := by
  cases result with
  | ok value => rfl
  | error fault => rfl

/-- A requirement is passed when it is met. -/
@[simp]
theorem resultIn_require {condition : Bool} {e : Err} {value : Unit} :
    resultIn deps w env (require condition e) = .ok value ↔ condition = true := by
  cases condition with
  | true => exact iff_of_true rfl rfl
  | false => exact iff_of_false error_ne_ok Bool.false_ne_true

/-- Environments that answer alike whatever a handler can ask give the same result. -/
theorem resultIn_congr
    (alike : Only (fun op =>
      ((server deps).perform w env op).1 = ((server deps).perform w later op).1) h) :
    resultIn deps w env h = resultIn deps w later h :=
  answer_congr alike fun _ same => same

end Handler

/-- A run with no other request in between, in one environment, that changes no store. -/
def Returns (deps : Deps) (w : World) (env : Env) (h : Handler α) (result : Except Fault α) :
    Prop :=
  ∃ events, (∀ e ∈ events, e.env = env) ∧ Alone deps w h events w result

/-- A run returns the handler's result. -/
theorem returns_iff {result : Except Fault α} (quiet : Only (LeavesWorld deps) h) :
    Returns deps w env h result ↔ resultIn deps w env h = result := by
  constructor
  · rintro ⟨events, constant, run⟩
    exact (exec_answer quiet run constant).2.symm
  · intro same
    have run : Returns deps w env h (resultIn deps w env h) := exists_exec_answer w env quiet
    rw [← same]
    exact run

/-- Every run in one environment performs an operation. -/
def MustAsk (deps : Deps) (w : World) (env : Env) (op : ServerOp) (h : Handler α) : Prop :=
  ∀ events w' result, (∀ e ∈ events, e.env = env) → Alone deps w h events w' result →
    ∃ e ∈ events, e.op = op

/-- A handler that is a call whatever follows performs it. -/
theorem mustAsk_of_call {next : Reply op → Program ServerOp Reply (Except Fault α)}
    (isCall : h.run = .call op next) :
    MustAsk deps w env op h := by
  intro events w' result _ run
  change Exec (server deps) w h.run events w' result at run
  rw [isCall] at run
  cases run with
  | call _ env _ _ rest => exact ⟨_, List.mem_cons_self, rfl⟩

/-- Behind a step that returns, the rest performs it. -/
theorem mustAsk_bind (quiet : Only (LeavesWorld deps) h)
    (first : resultIn deps w env h = .ok value) (rest : MustAsk deps w env op (next value)) :
    MustAsk deps w env op (h >>= next) := by
  intro events w' result constant run
  rcases exec_bindExcept run with ⟨_, failed, _⟩ | ⟨before, mid, found, later, parts, done, run⟩
  · have impossible := (exec_answer quiet failed constant).2.trans first
    cases impossible
  · have early : ∀ e ∈ before, e.env = env := by
      intro e member
      exact constant e (by rw [parts]; exact List.mem_append_left _ member)
    have late : ∀ e ∈ later, e.env = env := by
      intro e member
      exact constant e (by rw [parts]; exact List.mem_append_right _ member)
    obtain ⟨sameWorld, isFound⟩ := exec_answer quiet done early
    have same : found = value := Except.ok.inj (isFound.trans first)
    rw [sameWorld, same] at run
    obtain ⟨e, member, isOp⟩ := rest later w' result late run
    exact ⟨e, by rw [parts]; exact List.mem_append_right _ member, isOp⟩

/-- Such a run exists. -/
theorem mustAsk_run (asks : MustAsk deps w env op h) :
    ∃ events w' result, Alone deps w h events w' result ∧ ∃ e ∈ events, e.op = op := by
  have run : Alone deps w h _ _ _ := exec_runAlone (fun _ => env) 0 w h
  exact ⟨_, _, _, run, asks _ _ _ (runAlone_env env 0 w h.run) run⟩

/-- A request is let in as a tenant, whatever its tool. -/
def Admits (deps : Deps) (w : World) (env : Env) (ctx : Context)
    (tp : TenantPolicy) : Prop :=
  ∃ tc, ctx = some tc ∧ engineTenant deps.perTenant w.auth.tenants env.now tc.tenantID = .ok tp ∧
    tp.killSwitch = false ∧ env.rateAllowed = true

/-- The authorization lets in exactly the requests that are admitted. -/
@[simp]
theorem resultIn_authorize {ctx : Context} {tool : String} {tp : TenantPolicy} :
    resultIn deps w env (authorize ctx tool) = .ok tp ↔ Admits deps w env ctx tp := by
  cases ctx with
  | none => simp [authorize, Admits]
  | some tc =>
    simp [authorize, checkTenant, Admits]
    constructor
    · rintro ⟨found, known, live, again, allowed⟩
      cases known.symm.trans again
      exact ⟨known, live, allowed⟩
    · rintro ⟨known, live, allowed⟩
      exact ⟨tp, known, live, known, allowed⟩

/-- A request is let in as one tenant. -/
theorem admits_unique {ctx : Context} {tp tp' : TenantPolicy}
    (now : Admits deps w env ctx tp) (soon : Admits deps w later ctx tp') : tp = tp' := by
  obtain ⟨tc, isContext, found, _⟩ := now
  obtain ⟨tc', isContext', found', _⟩ := soon
  cases isContext.symm.trans isContext'
  exact engineTenant_unique found found'

end SvpMcp
