import SvpMcp.Lib.Program

/-!
# Programs whose surroundings stand still

A program that leaves the world as it is, run in one environment, is a function of both: its
calls are answered by a fixed oracle.
-/

namespace SvpMcp

namespace Program

variable {World Env Op α β ε : Type} {Reply : Op → Type}

/-- The result of a program whose calls an oracle answers. -/
def answer (reply : (op : Op) → Reply op) : Program Op Reply α → α
  | .done result => result
  | .call op next => (next (reply op)).answer reply

/-- A sequence is answered in turn. -/
theorem answer_bind (reply : (op : Op) → Reply op) (p : Program Op Reply α)
    (next : α → Program Op Reply β) :
    (p.bind next).answer reply = (next (p.answer reply)).answer reply := by
  induction p with
  | done result => rfl
  | call op rest ih => exact ih (reply op)

/-- The result of a program that can fail. -/
def answerExcept (reply : (op : Op) → Reply op) (p : ExceptT ε (Program Op Reply) α) :
    Except ε α :=
  answer reply p

/-- So is one that can fail. -/
theorem answer_bindExcept (reply : (op : Op) → Reply op) (p : ExceptT ε (Program Op Reply) α)
    (next : α → ExceptT ε (Program Op Reply) β) :
    answerExcept reply (p >>= next) =
      answerExcept reply p >>= fun value => answerExcept reply (next value) := by
  have sequence := answer_bind reply p (ExceptT.bindCont next)
  refine sequence.trans ?_
  show answer reply (ExceptT.bindCont next (answerExcept reply p)) = _
  cases answerExcept reply p with
  | ok value => rfl
  | error e => rfl

/-- Oracles that agree on what a program can call give the same result. -/
theorem answer_congr {reply reply' : (op : Op) → Reply op} {allowed : Op → Prop}
    {p : Program Op Reply α} (calls : p.Calls allowed)
    (same : ∀ op, allowed op → reply op = reply' op) : p.answer reply = p.answer reply' := by
  induction p with
  | done result => rfl
  | call op next ih =>
    show (next (reply op)).answer reply = (next (reply' op)).answer reply'
    rw [same op calls.1]
    exact ih _ (calls.2 _)

variable {sys : System World Env Op Reply}

/-- A run of a program that leaves the world, in an unchanging environment. -/
theorem exec_answer {w w' : World} {env : Env} {p : Program Op Reply α}
    {events : List (Event World Env Op Reply)} {result : α}
    (quiet : p.Calls fun op => ∀ w env, (sys.perform w env op).2 = w)
    (exec : Exec sys w p events w' result) (constant : ∀ e ∈ events, e.env = env) :
    w' = w ∧ result = p.answer fun op => (sys.perform w env op).1 := by
  induction exec with
  | done w result => exact ⟨rfl, rfl⟩
  | call w env' op next rest ih =>
    have here : env' = env := constant _ List.mem_cons_self
    subst here
    have after := ih (quiet.2 _) fun e member => constant e (List.mem_cons_of_mem _ member)
    rw [quiet.1] at after
    exact after

/-- Such a run exists, and returns what the oracle's answers lead to. -/
theorem exists_exec_answer (w : World) (env : Env) {p : Program Op Reply α}
    (quiet : p.Calls fun op => ∀ w env, (sys.perform w env op).2 = w) :
    ∃ events, (∀ e ∈ events, e.env = env) ∧
      Exec sys w p events w (p.answer fun op => (sys.perform w env op).1) := by
  have run : Exec sys w p (runAlone sys (fun _ => env) 0 w p).1
      (runAlone sys (fun _ => env) 0 w p).2.1 (runAlone sys (fun _ => env) 0 w p).2.2 :=
    exec_runAlone (fun _ => env) 0 w p
  have constant : ∀ e ∈ (runAlone sys (fun _ => env) 0 w p).1, e.env = env :=
    runAlone_env env 0 w p
  obtain ⟨same, result⟩ := exec_answer quiet run constant
  rw [same, result] at run
  exact ⟨_, constant, run⟩

end Program

end SvpMcp
