import SvpMcp.Model.TransferOut

/-!
# What the transfer-out store is for

The purpose of the store over the history of its calls: usage is what was recorded today, the cap
is the one set last. `DurableStore` is the component next to it.
-/

namespace SvpMcp

open Calendar

/-- A call of the store's interface, or a restart of the server. -/
inductive TransferOutCall where
  | setCap (owner : String) (c : SymbolCap)
  | setUnlimited (owner symbol : String)
  | record (owner symbol : String) (amt : Option Int)
  | check (owner symbol : String) (amt : Option Int)
  | used (owner symbol : String)
  | cap (owner symbol : String)
  | restart

namespace TransferOutCall

/-- The amount a call adds to the usage of an owner's symbol. -/
def recorded (owner symbol : String) : TransferOutCall → Int
  | .record o s (some a) => if o = owner ∧ s = symbol ∧ 0 < a then a else 0
  | _ => 0

/-- The cap of an owner's symbol after a call. -/
def capAfter (owner symbol : String) (before : Option SymbolCap) :
    TransferOutCall → Option SymbolCap
  | .setCap o c => if o = owner ∧ c.symbol = symbol then some c else before
  | .setUnlimited o s => if o = owner ∧ s = symbol then none else before
  | _ => before

/-- The call is about the given owner and symbol. -/
def concerns (owner symbol : String) : TransferOutCall → Bool
  | .setCap o c => o = owner && c.symbol = symbol
  | .setUnlimited o s => o = owner && s = symbol
  | .record o s _ => o = owner && s = symbol
  | .check o s _ => o = owner && s = symbol
  | .used o s => o = owner && s = symbol
  | .cap o s => o = owner && s = symbol
  | .restart => false

/-- A cap is set with an amount. -/
def Finite : TransferOutCall → Prop
  | .setCap _ c => ∃ capBase, c.capBase = some capBase
  | _ => True

end TransferOutCall

/-- Calls in the order they were made, each with its instant. -/
abbrev TransferOutHistory := List (Time × TransferOutCall)

namespace TransferOutHistory

/-- The clock never runs backwards, and every cap is set with an amount. -/
structure Proper (history : TransferOutHistory) : Prop where
  /-- The instants are in order. -/
  ordered : (history.map Prod.fst).Pairwise (· ≤ ·)
  /-- Caps have amounts. -/
  finite : ∀ event ∈ history, event.2.Finite

variable (history : TransferOutHistory) (day : Int) (owner symbol : String)

/-- The sum of the positive amounts recorded for an owner's symbol in a UTC day. -/
def usedOn : Int :=
  (history.map fun event =>
    if utcDay event.1 = day then event.2.recorded owner symbol else 0).sum

/-- The cap the latest `SetCap` or `SetUnlimited` left for an owner's symbol. -/
def latestCap : Option SymbolCap :=
  history.foldl (fun cap event => event.2.capAfter owner symbol cap) none

/-- A request of `a` base units exceeds the finite cap in force. -/
def Exceeds (a : Int) : Prop :=
  ∃ c capBase, history.latestCap owner symbol = some c ∧ c.capBase = some capBase ∧
    capBase < history.usedOn day owner symbol + a

/-- A call adds what it records. -/
theorem usedOn_append (t : Time) (call : TransferOutCall) (day : Int) (owner symbol : String) :
    usedOn (history ++ [(t, call)]) day owner symbol =
      history.usedOn day owner symbol +
        if utcDay t = day then call.recorded owner symbol else 0 := by
  simp [usedOn]

/-- The last call decides the cap. -/
theorem latestCap_append (t : Time) (call : TransferOutCall) (owner symbol : String) :
    latestCap (history ++ [(t, call)]) owner symbol =
      call.capAfter owner symbol (history.latestCap owner symbol) := by
  simp [latestCap]

/-- A call about something else adds nothing. -/
theorem recorded_of_not_concerns {owner symbol : String} {call : TransferOutCall}
    (other : call.concerns owner symbol = false) : call.recorded owner symbol = 0 := by
  cases call with
  | record o s amt =>
    cases amt with
    | none => rfl
    | some a =>
      have different : ¬(o = owner ∧ s = symbol ∧ 0 < a) := by
        intro same
        simp [TransferOutCall.concerns, same.1, same.2.1] at other
      rw [TransferOutCall.recorded, if_neg different]
  | _ => rfl

/-- A call about something else leaves the cap. -/
theorem capAfter_of_not_concerns {owner symbol : String} {call : TransferOutCall}
    (other : call.concerns owner symbol = false) (before : Option SymbolCap) :
    call.capAfter owner symbol before = before := by
  cases call with
  | setCap o c =>
    have different : ¬(o = owner ∧ c.symbol = symbol) := by
      intro same
      simp [TransferOutCall.concerns, same.1, same.2] at other
    rw [TransferOutCall.capAfter, if_neg different]
  | setUnlimited o s =>
    have different : ¬(o = owner ∧ s = symbol) := by
      intro same
      simp [TransferOutCall.concerns, same.1, same.2] at other
    rw [TransferOutCall.capAfter, if_neg different]
  | _ => rfl

/-- The part of a history that is about one owner's symbol. -/
def about : TransferOutHistory :=
  history.filter fun event => event.2.concerns owner symbol

/-- Usage depends only on the calls about the owner's symbol. -/
theorem usedOn_about :
    (history.about owner symbol).usedOn day owner symbol = history.usedOn day owner symbol := by
  induction history with
  | nil => rfl
  | cons event rest ih =>
    simp only [about, usedOn] at ih
    by_cases own : event.2.concerns owner symbol = true
    · simp [about, usedOn, own, ih]
    · have zero := recorded_of_not_concerns (Bool.eq_false_iff.mpr own)
      simp [about, usedOn, own, ih, zero]

/-- The cap depends only on the calls about the owner's symbol. -/
theorem latestCap_about :
    (history.about owner symbol).latestCap owner symbol = history.latestCap owner symbol := by
  induction history using List.reverseRecOn with
  | nil => rfl
  | append_singleton rest event ih =>
    obtain ⟨t, call⟩ := event
    rw [latestCap_append]
    by_cases own : call.concerns owner symbol = true
    · have split : about (rest ++ [(t, call)]) owner symbol =
          about rest owner symbol ++ [(t, call)] := by
        simp [about, own]
      rw [split, latestCap_append, ih]
    · have split : about (rest ++ [(t, call)]) owner symbol = about rest owner symbol := by
        simp [about, own]
      rw [split, ih, capAfter_of_not_concerns (Bool.eq_false_iff.mpr own)]

end TransferOutHistory

/-- What a call answers. -/
inductive TransferOutReply where
  | done
  | checked (result : Except ErrSymbolCapExceeded Unit)
  | amount (value : Int)
  | cap (c : Option SymbolCap)

/-- The answer to a call about an owner's symbol, given the symbol's cap and today's usage. -/
def TransferOutCall.answer (found : Option SymbolCap) (used : Int) :
    TransferOutCall → TransferOutReply
  | .check _ _ (some a) =>
    .checked (if a ≤ 0 then .ok () else MemoryTransferOutStore.checkAgainst found used a)
  | .check _ _ none => .checked (.ok ())
  | .used _ _ => .amount used
  | .cap _ _ => .cap found
  | _ => .done

/-- The store in memory and the disk it writes through to. -/
structure DurableStore where
  store : MemoryTransferOutStore
  disk : Disk

namespace DurableStore

variable (d : DurableStore) (now : Time)

/-- One call at an instant; a restart replaces the store by the one its file loads to. -/
def step :
    TransferOutCall → Except Errorf (TransferOutReply × DurableStore)
  | .setCap owner c =>
    let (store, disk) := d.store.setCap d.disk owner c
    .ok (.done, ⟨store, disk⟩)
  | .setUnlimited owner symbol =>
    let (store, disk) := d.store.setUnlimited d.disk owner symbol
    .ok (.done, ⟨store, disk⟩)
  | .record owner symbol amt =>
    let (store, disk) := d.store.record d.disk now owner symbol amt
    .ok (.done, ⟨store, disk⟩)
  | .check owner symbol amt =>
    let (result, store, disk) := d.store.check d.disk now owner symbol amt
    .ok (.checked result, ⟨store, disk⟩)
  | .used owner symbol =>
    let (value, store, disk) := d.store.usedToday d.disk now owner symbol
    .ok (.amount value, ⟨store, disk⟩)
  | .cap owner symbol => .ok (.cap (d.store.cap owner symbol), d)
  | .restart =>
    match MemoryTransferOutStore.load d.store.path d.disk with
    | .error e => .error e
    | .ok store => .ok (.done, ⟨store, d.disk⟩)

variable (owner symbol : String)

/-- A record, as a step of the durable store. -/
theorem step_record (amt : Option Int) :
    d.step now (.record owner symbol amt) = .ok (.done,
      ⟨(d.store.record d.disk now owner symbol amt).1,
        (d.store.record d.disk now owner symbol amt).2⟩) := by
  rw [step]

/-- A check, as a step. -/
theorem step_check (amt : Option Int) :
    d.step now (.check owner symbol amt) =
      .ok (.checked (d.store.check d.disk now owner symbol amt).1,
        ⟨(d.store.check d.disk now owner symbol amt).2.1,
          (d.store.check d.disk now owner symbol amt).2.2⟩) := by
  rw [step]

/-- A query, as a step. -/
theorem step_used :
    d.step now (.used owner symbol) = .ok (.amount (d.store.usedToday d.disk now owner symbol).1,
      ⟨(d.store.usedToday d.disk now owner symbol).2.1,
        (d.store.usedToday d.disk now owner symbol).2.2⟩) := by
  rw [step]

/-- A whole history of calls; a failed restart ends it. -/
def run (d : DurableStore) : TransferOutHistory → Except Errorf DurableStore
  | [] => .ok d
  | (now, call) :: rest =>
    match d.step now call with
    | .error e => .error e
    | .ok (_, d) => d.run rest

end DurableStore

end SvpMcp
