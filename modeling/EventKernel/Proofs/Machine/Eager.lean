import EventKernel.Proofs.Machine.Agree
import EventKernel.Proofs.Machine.Watchdog

/-!
# Callbacks that cancel events or take them away

Two machines in the midst of the same callback, one of which takes events away wherever the other
one cancels them: they make the same steps, up to slots, until the callback is done.
-/

namespace EventKernel

open Simulator (Agree)

variable {K U : Type} {C : Correspondence K} {D : Correspondence U} {w w' v v' : Matching}
  {s t : Simulator K} {m m' : Memory K U}

/-! ### Notes -/

/-- What is noted of a run: the callbacks that the loop invokes, the code that starts, and what
programs are told about the handles they ask for. -/
inductive Note (K : Type) where
  | invoked (id : EventId) (time : Time) (context : ContextId) (task : Task K)
  | ran (k : K)
  | withdrawn (id : EventId) (b : Bool)
  | expired (id : EventId) (b : Bool)
  | left (id : EventId) (delay : Time)

/-- Two notes that are the same but for slots. -/
inductive Note.Matched (C : Correspondence K) (w : Matching) : Note K → Note K → Prop where
  | invoked {id id' : EventId} (time : Time) (context : ContextId) {task task' : Task K}
      (hid : id.Matched w id') (htask : task.Matched C w task') :
      Matched C w (.invoked id time context task) (.invoked id' time context task')
  | ran {k l : K} (h : C.rel w k l) : Matched C w (.ran k) (.ran l)
  | withdrawn {id id' : EventId} (b : Bool) (h : id.Matched w id') :
      Matched C w (.withdrawn id b) (.withdrawn id' b)
  | expired {id id' : EventId} (b : Bool) (h : id.Matched w id') :
      Matched C w (.expired id b) (.expired id' b)
  | left {id id' : EventId} (delay : Time) (h : id.Matched w id') :
      Matched C w (.left id delay) (.left id' delay)

lemma Note.Matched.mono {x y : Note K} (h : x.Matched C w y) (hle : w ≤ w') :
    x.Matched C w' y := by
  cases h with
  | invoked time context hid htask => exact .invoked time context (hid.mono hle) (htask.mono hle)
  | ran h => exact .ran (C.mono h hle)
  | withdrawn b h => exact .withdrawn b (h.mono hle)
  | expired b h => exact .expired b (h.mono hle)
  | left delay h => exact .left delay (h.mono hle)

/-- The code that starts with a task. -/
def Task.code? : Task K → Simulator K → Memory K U → Option K
  | .user k, _, _ => some k
  | .watchdog n, s, m => (m.watchdog? n).bind fun d => (d.expire n s).1
  | .trickleFire n, _, m => (m.trickle? n).bind fun d => d.fire.1
  | .stop, _, _ | .trickleInterval _, _, _ => none

/-- What is noted of a request. -/
def SimRequest.notes : SimRequest K → Simulator K → List (Note K)
  | cancel id, s => [.withdrawn id (s.cancel id).1]
  | remove id, s => [.withdrawn id (s.remove id).1]
  | isExpired id, s => [.expired id (s.isExpired id)]
  | delayLeft id, s => [.left id (s.delayLeft id)]
  | _, _ => []

@[inherit_doc SimRequest.notes]
def Request.notes : Request K U → Simulator K → List (Note K)
  | sim r, s => r.notes s
  | _, _ => []

/-- What is noted of an event that is taken off the queue. -/
def EventId.invocation (id : EventId) (ev : Event (Task K)) : List (Note K) :=
  if ev.cancelled then [] else [.invoked id ev.key.time ev.context ev.task]

/-- What is noted of a step. -/
def Frame.notes : Frame K U → Simulator K → Memory K U → List (Note K)
  | .exec (.ask r _), s, _ => r.notes s
  | .task x, s, m => (x.code? s m).toList.map .ran
  | .next, s, _ => s.upcoming?.toList.flatMap fun p => p.1.invocation p.2
  | _, _, _ => []

/-! ### Frames -/

/-- Two frames of a callback that do the same up to slots, the second with taking events away
wherever the first one cancels them. -/
inductive Frame.Eagerly (C : Correspondence K) (D : Correspondence U) (w : Matching) :
    Frame K U → Frame K U → Prop where
  | exec {p q : Program K U PUnit} (h : p.Matched C D w q) : Eagerly C D w (.exec p) (.exec q.eager)
  | task {task task' : Task K} (h : task.Matched C w task') :
      Eagerly C D w (.task task) (.task task')
  | restore (context : ContextId) : Eagerly C D w (.restore context) (.restore context)
  | rearmWatchdog (n : Nat) {k l : K} (h : C.rel w k l) :
      Eagerly C D w (.rearmWatchdog n k) (.rearmWatchdog n l)
  | rearmTrickle (n : Nat) {k l : K} (h : C.rel w k l) :
      Eagerly C D w (.rearmTrickle n k) (.rearmTrickle n l)

lemma Frame.Eagerly.mono {f g : Frame K U} (h : f.Eagerly C D w g) (hle : w ≤ w') :
    f.Eagerly C D w' g := by
  cases h with
  | exec h => exact .exec (h.mono hle)
  | task h => exact .task (h.mono hle)
  | restore context => exact .restore context
  | rearmWatchdog n h => exact .rearmWatchdog n (C.mono h hle)
  | rearmTrickle n h => exact .rearmTrickle n (C.mono h hle)

namespace Machine

variable {code : Code K U} {f g : Frame K U} {p q : Program K U PUnit}

/-- A step of a callback on both sides leaves frames of the callback, and what is below does not
matter. -/
def StepsEagerly (code : Code K U) (C : Correspondence K) (D : Correspondence U) (w v : Matching)
    (f g : Frame K U) (s t : Simulator K) (m m' : Memory K U) : Prop :=
  ∃ w' v' s' t' n n' top top', w ≤ w' ∧ v ≤ v' ∧
    (∀ rest, stepFrame code f s m rest = ⟨s', n, top ++ rest, false⟩) ∧
    (∀ rest, stepFrame code.eager g t m' rest = ⟨t', n', top' ++ rest, false⟩) ∧
    List.Forall₂ (Frame.Eagerly C D w') top top' ∧ Agree C w' v' s' t' ∧
    n.Matched C D w' v' n' ∧ s'.phase = s.phase ∧
    List.Forall₂ (Note.Matched C w') (f.notes s m) (g.notes t m')

lemma eager_ask {α : Type} {r : Request K U} {next : r.Reply → Program K U α}
    (h : ∀ id, r ≠ .sim (.cancel id)) :
    (Program.ask r next).eager = .ask r fun a => (next a).eager := by
  rw [Program.eager]
  exact fun id _ hr _ => h id hr

section

variable {r r' : Request K U} {A : Matching → r.Reply → r'.Reply → Prop}

lemma ne_cancel_of_matched (hr : r.Matched C D w r' A) (h : ∀ id, r ≠ .sim (.cancel id)) :
    ∀ id, r' ≠ .sim (.cancel id) := by
  cases hr with
  | cancel => exact absurd rfl (h _)
  | neutral => exact h
  | _ => exact fun id => by simp

/-- What programs are told about their handles is the same on both sides. -/
lemma matched_notes (hr : r.Matched C D w r' A) (hs : Agree C w v s t)
    (h : ∀ id, r ≠ .sim (.cancel id)) :
    List.Forall₂ (Note.Matched C w) (r.notes s) (r'.notes t) := by
  cases hr with
  | cancel => exact absurd rfl (h _)
  | isExpired hid =>
    simp only [Request.notes, SimRequest.notes, hs.isExpired_eq (hid.mono hs.events.le)]
    exact .cons (.expired _ hid) .nil
  | delayLeft hid =>
    simp only [Request.notes, SimRequest.notes, hs.delayLeft_eq (hid.mono hs.events.le)]
    exact .cons (.left _ hid) .nil
  | neutral r hr =>
    cases r with
    | sim r => cases r <;> first | exact hr.elim | exact .nil
    | _ => exact .nil
  | _ => exact .nil

end

section

variable {s' t' : Simulator K} {n n' : Memory K U}

/-- A step that starts nothing. -/
lemma stepsEagerly_of_nothing (hf : ∀ rest, stepFrame code f s m rest = ⟨s', n, rest, false⟩)
    (hg : ∀ rest, stepFrame code.eager g t m' rest = ⟨t', n', rest, false⟩) (hle : v ≤ v')
    (hs : Agree C w v' s' t') (hm : n.Matched C D w v' n') (hphase : s'.phase = s.phase)
    (hnotes : f.notes s m = []) (hnotes' : g.notes t m' = []) :
    StepsEagerly code C D w v f g s t m m' := by
  refine ⟨w, v', s', t', n, n', [], [], le_refl w, hle, hf, hg, .nil, hs, hm, hphase, ?_⟩
  rw [hnotes, hnotes']
  exact .nil

/-- A step that starts code of the user. -/
lemma stepsEagerly_of_code (hcode : code.SlotBlind C D) {k l : K} (hkl : C.rel w k l)
    {top top' : List (Frame K U)} (htop : List.Forall₂ (Frame.Eagerly C D w) top top')
    (hf : ∀ rest, stepFrame code f s m rest =
      ⟨s', n, .exec (code.routine k) :: top ++ rest, false⟩)
    (hg : ∀ rest, stepFrame code.eager g t m' rest =
      ⟨t', n', .exec (code.eager.routine l) :: top' ++ rest, false⟩) (hle : v ≤ v')
    (hs : Agree C w v' s' t') (hm : n.Matched C D w v' n') (hphase : s'.phase = s.phase)
    (hnotes : f.notes s m = [.ran k]) (hnotes' : g.notes t m' = [.ran l]) :
    StepsEagerly code C D w v f g s t m m' := by
  refine ⟨w, v', s', t', n, n', _, _, le_refl w, hle, hf, hg, .cons ?_ htop, hs, hm, hphase, ?_⟩
  · exact .exec (hcode.routine hkl)
  · rw [hnotes, hnotes']
    exact .cons (.ran hkl) .nil

end

lemma stepsEagerly_exec (hp : p.Matched C D w q) (hs : Agree C w v s t)
    (hm : m.Matched C D w v m') (hkept : m.Guards s) (hrunning : s.phase = .running) :
    StepsEagerly code C D w v (.exec p) (.exec q.eager) s t m m' := by
  have hrunning' : t.phase = .running := hs.phase_eq.trans hrunning
  cases hp with
  | done a =>
    exact stepsEagerly_of_nothing (fun _ => rfl) (fun _ => rfl) (le_refl v) hs hm rfl rfl rfl
  | @ask _ r r' A next next' hr h =>
    by_cases hnot : ∀ id, r ≠ .sim (.cancel id)
    · obtain ⟨w', v', hle, hle', hab, hs', hm'⟩ := hr.together hs hm hkept hnot
      rw [eager_ask (ne_cancel_of_matched hr hnot)]
      exact ⟨w', v', _, _, _, _, [.exec (next (r.apply s m).1)],
        [.exec (next' (r'.apply t m').1).eager], hle, hle', fun _ => rfl, fun _ => rfl,
        .cons (.exec (h w' hle _ _ hab)) .nil, hs', hm', r.phase_apply s m,
        (matched_notes hr hs hnot).imp fun _ _ hn => hn.mono hle⟩
    · obtain ⟨id, hid⟩ := not_forall_not.mp hnot
      subst hid
      cases hr with
      | neutral _ hr => exact hr.elim
      | @cancel _ id' hid =>
        obtain ⟨hb, hs'⟩ := hs.withdraw hid
        refine ⟨w, v, _, _, m, m', [.exec (next (s.cancel id).1)],
          [.exec (next' (t.remove id').1).eager], le_refl w, le_refl v, fun _ => rfl, fun _ => rfl,
          .cons (.exec (h w (le_refl w) _ _ hb.symm)) .nil, hs', hm,
          SimRequest.phase_apply (.cancel id) s, ?_⟩
        refine .cons ?_ .nil
        rw [hb]
        exact .withdrawn _ hid
  | @perform _ k l next next' hk h =>
    exact ⟨w, v, s, t, m, m', [.task (.user k), .exec (next ())],
      [.task (.user l), .exec (next' ()).eager], le_refl w, le_refl v, fun _ => rfl, fun _ => rfl,
      .cons (.task (.user hk)) (.cons (.exec (h w (le_refl w))) .nil), hs, hm, rfl, .nil⟩
  | @run _ next next' h =>
    exact ⟨w, v, s, t, m, m', [.exec (next (.error .alreadyRunning))],
      [.exec (next' (.error .alreadyRunning)).eager], le_refl w, le_refl v,
      fun _ => by simp only [stepFrame, exec, hrunning, List.singleton_append],
      fun _ => by simp only [stepFrame, Program.eager, exec, hrunning', List.singleton_append],
      .cons (.exec (h w (le_refl w) _)) .nil, hs, hm, rfl, .nil⟩
  | @destroy _ next next' h =>
    exact ⟨w, v, s, t, m, m', [.exec (next (.error .notStopped))],
      [.exec (next' (.error .notStopped)).eager], le_refl w, le_refl v,
      fun _ => by simp only [stepFrame, exec, hrunning, List.singleton_append],
      fun _ => by simp only [stepFrame, Program.eager, exec, hrunning', List.singleton_append],
      .cons (.exec (h w (le_refl w) _)) .nil, hs, hm, rfl, .nil⟩

/-- The expiry of a watchdog runs the same function on both sides, if any. -/
lemma stepsEagerly_watchdog (hcode : code.SlotBlind C D) (hs : Agree C w v s t)
    (hm : m.Matched C D w v m') (n : Nat) :
    StepsEagerly code C D w v (.task (.watchdog n)) (.task (.watchdog n)) s t m m' := by
  rcases rel_option_cases (hm.watchdog? n) with ⟨hn, hn'⟩ | ⟨d, d', hn, hn', hd⟩
  · refine stepsEagerly_of_nothing ?_ ?_ (le_refl v) hs hm rfl ?_ ?_ <;>
      simp [stepFrame, start, Frame.notes, Task.code?, hn, hn']
  · have hphase := (d.course_expire n s).phase_eq
    obtain ⟨k, l, e, e', s', t', u, hx, hy, hle, hkl, he, h⟩ := hd.expire hs n
    rw [hx] at hphase
    have hm' := (hm.mono (le_refl w) hle).setWatchdog n (.some he)
    cases hkl with
    | none =>
      refine stepsEagerly_of_nothing ?_ ?_ hle h hm' hphase ?_ ?_ <;>
        simp [stepFrame, start, Frame.notes, Task.code?, hn, hn', hx, hy]
    | some hkl =>
      refine stepsEagerly_of_code hcode hkl (.cons (.rearmWatchdog n hkl) .nil) ?_ ?_ hle h hm'
        hphase ?_ ?_ <;>
        simp [stepFrame, start, Frame.notes, Task.code?, hn, hn', hx, hy]

/-- The end of an interval begins the next one on both sides. -/
lemma stepsEagerly_trickleInterval (hs : Agree C w v s t) (hm : m.Matched C D w v m') (n : Nat) :
    StepsEagerly code C D w v (.task (.trickleInterval n)) (.task (.trickleInterval n)) s t m
      m' := by
  rcases rel_option_cases (hm.trickle? n) with ⟨hn, hn'⟩ | ⟨d, d', hn, hn', hd⟩
  · refine stepsEagerly_of_nothing ?_ ?_ (le_refl v) hs hm rfl ?_ ?_ <;>
      simp [stepFrame, start, Frame.notes, Task.code?, hn, hn']
  · have hphase := (d.course_endInterval n s).phase_eq
    obtain ⟨e, e', s', t', u, hx, hy, hle, he, h⟩ := hd.endInterval hs n
    rw [hx] at hphase
    have hm' := (hm.mono (le_refl w) hle).setTrickle n (.some he)
    refine stepsEagerly_of_nothing ?_ ?_ hle h hm' hphase ?_ ?_ <;>
      simp [stepFrame, start, Frame.notes, Task.code?, hn, hn', hx, hy]

/-- A firing point runs the same function on both sides, if any. -/
lemma stepsEagerly_trickleFire (hcode : code.SlotBlind C D) (hs : Agree C w v s t)
    (hm : m.Matched C D w v m') (n : Nat) :
    StepsEagerly code C D w v (.task (.trickleFire n)) (.task (.trickleFire n)) s t m m' := by
  rcases rel_option_cases (hm.trickle? n) with ⟨hn, hn'⟩ | ⟨d, d', hn, hn', hd⟩
  · refine stepsEagerly_of_nothing ?_ ?_ (le_refl v) hs hm rfl ?_ ?_ <;>
      simp [stepFrame, start, Frame.notes, Task.code?, hn, hn']
  · obtain ⟨hkl, he⟩ := hd.fire
    rcases hx : d.fire with ⟨k, e⟩
    rcases hy : d'.fire with ⟨l, e'⟩
    rw [hx, hy] at hkl he
    have hm' := hm.setTrickle n (.some he)
    cases hkl with
    | none =>
      refine stepsEagerly_of_nothing ?_ ?_ (le_refl v) hs hm' rfl ?_ ?_ <;>
        simp [stepFrame, start, Frame.notes, Task.code?, hn, hn', hx, hy]
    | some hkl =>
      refine stepsEagerly_of_code hcode hkl (.cons (.rearmTrickle n hkl) .nil) ?_ ?_ (le_refl v) hs
        hm' rfl ?_ ?_ <;>
        simp [stepFrame, start, Frame.notes, Task.code?, hn, hn', hx, hy]

lemma stepsEagerly_task (hcode : code.SlotBlind C D) {task task' : Task K}
    (htask : task.Matched C w task') (hs : Agree C w v s t) (hm : m.Matched C D w v m') :
    StepsEagerly code C D w v (.task task) (.task task') s t m m' := by
  cases htask with
  | user hk =>
    exact stepsEagerly_of_code hcode hk .nil (fun _ => rfl) (fun _ => rfl) (le_refl v) hs hm rfl rfl
      rfl
  | stop =>
    exact stepsEagerly_of_nothing (fun _ => rfl) (fun _ => rfl) (le_refl v) hs.stop hm rfl rfl rfl
  | watchdog n => exact stepsEagerly_watchdog hcode hs hm n
  | trickleInterval n => exact stepsEagerly_trickleInterval hs hm n
  | trickleFire n => exact stepsEagerly_trickleFire hcode hs hm n

/-- Frames of a callback make the same steps on both sides. -/
lemma stepsEagerly (hcode : code.SlotBlind C D) (hf : f.Eagerly C D w g)
    (hs : Agree C w v s t) (hm : m.Matched C D w v m') (hkept : m.Guards s)
    (hrunning : s.phase = .running) : StepsEagerly code C D w v f g s t m m' := by
  cases hf with
  | exec hp => exact stepsEagerly_exec hp hs hm hkept hrunning
  | task htask => exact stepsEagerly_task hcode htask hs hm
  | restore context =>
    exact stepsEagerly_of_nothing (fun _ => rfl) (fun _ => rfl) (le_refl v)
      (hs.setContext context) hm rfl rfl rfl
  | rearmWatchdog n hk =>
    have hd := rel_option_map (fun _ _ h => h.restore hk) (hm.watchdog? n)
    exact stepsEagerly_of_nothing (fun _ => rfl) (fun _ => rfl) (le_refl v) hs
      (hm.setWatchdog n hd) rfl rfl rfl
  | rearmTrickle n hk =>
    have hd := rel_option_map (fun _ _ h => h.restore hk) (hm.trickle? n)
    exact stepsEagerly_of_nothing (fun _ => rfl) (fun _ => rfl) (le_refl v) hs
      (hm.setTrickle n hd) rfl rfl rfl

end Machine

end EventKernel
