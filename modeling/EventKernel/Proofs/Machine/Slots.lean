import EventKernel.Machine.Program
import EventKernel.Proofs.Simulator.Agree

/-!
# Programs that read no slots

A program that reads no slots makes the same requests whatever slots its events are stored in: given
handles that are matched, it goes on in the same way, and in the handles it names it may differ only
as the handles differ that it was given. Here it also takes no events away, and it asks for nothing
that tells about cancelled events: neither for their number nor whether there are any, nor for a
description of the simulator, which shows the number.

Such a program can be made to take events away wherever it cancels them.
-/

namespace EventKernel

open Simulator (Handed)

variable {K U α : Type} {C : Correspondence K} {D : Correspondence U} {w w' : Matching}

/-! ### Requests -/

/-- The requests that name neither code nor handles nor states of the user. -/
def SimRequest.IsNeutral : SimRequest K → Prop
  | identity | now | context | phase | eventCount | stop | kind | setScheduler _ | sync
  | boundLookahead _ => True
  | schedule .. | scheduleNow _ | scheduleWith .. | scheduleDestroy _ | stopAfter _ | cancel _
  | remove _ | isExpired _ | delayLeft _ | pendingEvents | isFinished | observe _ | describe =>
    False

@[inherit_doc SimRequest.IsNeutral]
def Request.IsNeutral : Request K U → Prop
  | sim r => r.IsNeutral
  | inbox _ .stop | inbox _ .isClosed | inbox _ .describe => True
  | watchdog _ (.ping _) | watchdog _ .cancel | watchdog _ .info | dropWatchdog _ => True
  | newTrickle .. | trickle _ .enable | trickle _ .reset | trickle _ .consistent
  | trickle _ .inconsistent | trickle _ .stop | trickle _ .info | dropTrickle _ => True
  | inbox _ (.schedule ..) | newWatchdog _ | watchdog _ (.setFunction _)
  | trickle _ (.setFunction _) | load | update _ => False

/-- Two requests that are the same but for slots, with what it means for two answers to be so. -/
inductive Request.Matched (C : Correspondence K) (D : Correspondence U) (w : Matching) :
    (r r' : Request K U) → (Matching → r.Reply → r'.Reply → Prop) → Prop where
  | schedule (delay : Time) {k l : K} (h : C.rel w k l) :
      Matched C D w (.sim (.schedule delay k)) (.sim (.schedule delay l)) Handed
  | scheduleNow {k l : K} (h : C.rel w k l) :
      Matched C D w (.sim (.scheduleNow k)) (.sim (.scheduleNow l)) Handed
  | scheduleWith (context : ContextId) (delay : Time) {k l : K} (h : C.rel w k l) :
      Matched C D w (.sim (.scheduleWith context delay k)) (.sim (.scheduleWith context delay l))
        Handed
  | scheduleDestroy {k l : K} (h : C.rel w k l) :
      Matched C D w (.sim (.scheduleDestroy k)) (.sim (.scheduleDestroy l)) Handed
  | stopAfter (delay : Time) :
      Matched C D w (.sim (.stopAfter delay)) (.sim (.stopAfter delay)) Handed
  | cancel {id id' : EventId} (h : id.Matched w id') :
      Matched C D w (.sim (.cancel id)) (.sim (.cancel id')) fun _ => Eq
  | isExpired {id id' : EventId} (h : id.Matched w id') :
      Matched C D w (.sim (.isExpired id)) (.sim (.isExpired id')) fun _ => Eq
  | delayLeft {id id' : EventId} (h : id.Matched w id') :
      Matched C D w (.sim (.delayLeft id)) (.sim (.delayLeft id')) fun _ => Eq
  | observe {k l : Option K} (h : C.option.rel w k l) :
      Matched C D w (.sim (.observe k)) (.sim (.observe l)) fun _ => Eq
  | handIn (target : Nat) (context : ContextId) (delay : Time) {k l : K} (h : C.rel w k l) :
      Matched C D w (.inbox target (.schedule context delay k))
        (.inbox target (.schedule context delay l)) fun _ => Eq
  | newWatchdog {k l : K} (h : C.rel w k l) :
      Matched C D w (.newWatchdog k) (.newWatchdog l) fun _ => Eq
  | setWatchdog (n : Nat) {k l : K} (h : C.rel w k l) :
      Matched C D w (.watchdog n (.setFunction k)) (.watchdog n (.setFunction l)) fun _ => Eq
  | setTrickle (n : Nat) {k l : K} (h : C.rel w k l) :
      Matched C D w (.trickle n (.setFunction k)) (.trickle n (.setFunction l)) fun _ => Eq
  | load : Matched C D w .load .load D.rel
  | update {f g : U → U} (h : ∀ w', w ≤ w' → ∀ u u', D.rel w' u u' → D.rel w' (f u) (g u')) :
      Matched C D w (.update f) (.update g) fun _ => Eq
  | neutral (r : Request K U) (hr : r.IsNeutral) : Matched C D w r r fun _ => Eq

lemma Request.Matched.mono {r r' : Request K U} {A : Matching → r.Reply → r'.Reply → Prop}
    (h : r.Matched C D w r' A) (hle : w ≤ w') : r.Matched C D w' r' A := by
  cases h with
  | schedule delay h => exact .schedule delay (C.mono h hle)
  | scheduleNow h => exact .scheduleNow (C.mono h hle)
  | scheduleWith context delay h => exact .scheduleWith context delay (C.mono h hle)
  | scheduleDestroy h => exact .scheduleDestroy (C.mono h hle)
  | stopAfter delay => exact .stopAfter delay
  | cancel h => exact .cancel (h.mono hle)
  | isExpired h => exact .isExpired (h.mono hle)
  | delayLeft h => exact .delayLeft (h.mono hle)
  | observe h => exact .observe (C.option.mono h hle)
  | handIn target context delay h => exact .handIn target context delay (C.mono h hle)
  | newWatchdog h => exact .newWatchdog (C.mono h hle)
  | setWatchdog n h => exact .setWatchdog n (C.mono h hle)
  | setTrickle n h => exact .setTrickle n (C.mono h hle)
  | load => exact .load
  | update h => exact .update fun u hu => h u (le_trans hle hu)
  | neutral r hr => exact .neutral r hr

/-! ### Programs -/

namespace Program

/-- Two programs that make the same requests but for slots, as long as they are given the same
answers but for slots. -/
inductive Matched (C : Correspondence K) (D : Correspondence U) :
    Matching → Program K U α → Program K U α → Prop where
  | done {w : Matching} (a : α) : Matched C D w (.done a) (.done a)
  | ask {w : Matching} {r r' : Request K U} {A : Matching → r.Reply → r'.Reply → Prop}
      {next : r.Reply → Program K U α} {next' : r'.Reply → Program K U α}
      (hr : r.Matched C D w r' A)
      (h : ∀ w', w ≤ w' → ∀ a a', A w' a a' → Matched C D w' (next a) (next' a')) :
      Matched C D w (.ask r next) (.ask r' next')
  | perform {w : Matching} {k l : K} {next next' : PUnit → Program K U α} (hk : C.rel w k l)
      (h : ∀ w', w ≤ w' → Matched C D w' (next ()) (next' ())) :
      Matched C D w (.perform k next) (.perform l next')
  | run {w : Matching} {next next' : Except SimError PUnit → Program K U α}
      (h : ∀ w', w ≤ w' → ∀ a, Matched C D w' (next a) (next' a)) :
      Matched C D w (.run next) (.run next')
  | destroy {w : Matching} {next next' : Except SimError PUnit → Program K U α}
      (h : ∀ w', w ≤ w' → ∀ a, Matched C D w' (next a) (next' a)) :
      Matched C D w (.destroy next) (.destroy next')

lemma Matched.mono {p q : Program K U α} (h : p.Matched C D w q) (hle : w ≤ w') :
    p.Matched C D w' q := by
  cases h with
  | done a => exact .done a
  | ask hr h => exact .ask (hr.mono hle) fun u hu => h u (le_trans hle hu)
  | perform hk h => exact .perform (C.mono hk hle) fun u hu => h u (le_trans hle hu)
  | run h => exact .run fun u hu => h u (le_trans hle hu)
  | destroy h => exact .destroy fun u hu => h u (le_trans hle hu)

/-- The program that takes events away wherever the given one cancels them. -/
def eager : Program K U α → Program K U α
  | done a => done a
  | ask (.sim (.cancel id)) next => ask (.sim (.remove id)) fun b => (next b).eager
  | ask r next => ask r fun a => (next a).eager
  | perform k next => perform k fun a => (next a).eager
  | run next => run fun a => (next a).eager
  | destroy next => destroy fun a => (next a).eager

end Program

/-! ### Code -/

/-- Two messages that are the same but for slots. -/
inductive Message.Matched (C : Correspondence K) (w : Matching) : Message K → Message K → Prop where
  | schedule (target : Nat) (context : ContextId) (delay : Time) {k l : K} (h : C.rel w k l) :
      Matched C w (.schedule target context delay k) (.schedule target context delay l)
  | stop (target : Nat) : Matched C w (.stop target) (.stop target)

namespace Code

/-- The code that takes events away wherever the given one cancels them. -/
def eager (code : Code K U) : Code K U := { code with routine := fun k => (code.routine k).eager }

/-- Code that cancels events and takes none away, and whose programs and observers read no slots and
do not ask about cancelled events. -/
structure SlotBlind (C : Correspondence K) (D : Correspondence U) (code : Code K U) : Prop where
  routine {w : Matching} {k l : K} (h : C.rel w k l) :
    (code.routine k).Matched C D w (code.routine l)
  observe {w : Matching} {k l : K} (identity : Nat) {id id' : EventId} (time : Time)
    (context : ContextId) {u u' : U} (h : C.rel w k l) (hid : id.Matched w id')
    (hu : D.rel w u u') :
    D.rel w (code.observe k identity ⟨id, time, context⟩ u).1
        (code.observe l identity ⟨id', time, context⟩ u').1 ∧
      List.Forall₂ (Message.Matched C w) (code.observe k identity ⟨id, time, context⟩ u).2
        (code.observe l identity ⟨id', time, context⟩ u').2

end Code

end EventKernel
