import EventKernel.Proofs.Fleet.Hook
import EventKernel.Proofs.Machine.Renewal

/-!
# Timers on several simulators

A timer can be used on any simulator of a fleet, but it keeps bare handles, and handles of different
simulators can be equal. The handle that it keeps for one kind of its events is the one issued last,
on whichever simulator. So the timer stays within its own events on the simulator on which it has
scheduled last. On another one the handle may name an event of somebody else, and then the timer
takes it for its own.
-/

namespace EventKernel

namespace Fleet

open EventId (renewed)

variable {K E V : Type} {c : FleetCode K E V} {f : Fleet K E V} {mv : Move K E V} {i : Nat}
  {past : TimerEvent → List (Nat × EventId)}

/-! ### What is issued for timers -/

/-- The handles that a move issues for one kind of timer event, each with its simulator. -/
def issues (e : TimerEvent) (f : Fleet K E V) : Move K E V → List (Nat × EventId)
  | .step =>
    match f.runs with
    | (i, frame :: _) :: _ => (f.world.sim? i).toList.flatMap fun s =>
      (issuedFor e (frame.turns s f.world.memory)).map (i, ·)
    | _ => []
  | _ => []

/-- The handles that a run issues for one kind of timer event, in order. -/
def issuedIn (c : FleetCode K E V) (e : TimerEvent) :
    List (Move K E V) → Fleet K E V → List (Nat × EventId)
  | [], _ => []
  | mv :: moves, f => f.issues e mv ++ issuedIn c e moves (f.move c mv)

lemma issues_of_runs {frame : Frame (Job K E) V} {frames : List (Frame (Job K E) V)}
    {rest : List (Nat × List (Frame (Job K E) V))} {s : Simulator (Job K E)}
    (hruns : f.runs = (i, frame :: frames) :: rest) (hs : f.world.sim? i = some s)
    (e : TimerEvent) :
    f.issues e .step = (issuedFor e (frame.turns s f.world.memory)).map (i, ·) := by
  simp only [issues, hruns, hs, Option.toList_some, List.flatMap_singleton]

/-- A move is a step of one simulator, or it has nothing to do with timers. -/
lemma move_cases (c : FleetCode K E V) (f : Fleet K E V) (mv : Move K E V) :
    (∃ i frame frames rest s, mv = .step ∧ f.runs = (i, frame :: frames) :: rest ∧
      frame.deed? = none ∧ f.world.sim? i = some s) ∨
      (∀ e, f.issues e mv = []) ∧
        (f.move c mv).world.memory.watchdogs = f.world.memory.watchdogs ∧
        (f.move c mv).world.memory.trickles = f.world.memory.trickles := by
  by_cases hsteps : ∃ i frame frames rest s, mv = .step ∧ f.runs = (i, frame :: frames) :: rest ∧
      frame.deed? = none ∧ f.world.sim? i = some s
  · exact Or.inl hsteps
  · refine Or.inr ⟨fun e => ?_, ?_⟩
    · cases mv with
      | step =>
        rw [issues]
        split
        · next i frame frames rest hruns =>
          cases hs : f.world.sim? i with
          | none => rfl
          | some s =>
            cases hdeed : frame.deed? with
            | none => exact absurd ⟨i, frame, frames, rest, s, rfl, hruns, hdeed, hs⟩ hsteps
            | some d =>
              rw [Frame.eq_of_deed? hdeed]
              rfl
        · rfl
      | add | enter | remote | reader | forbid => rfl
    · have ho := f.outcome_move c mv
      generalize f.move c mv = g at ho ⊢
      cases ho with
      | advance hruns hdeed hs => exact absurd ⟨_, _, _, _, _, rfl, hruns, hdeed, hs⟩ hsteps
      | starts =>
        obtain ⟨update, hworld⟩ := world_afterStart ..
        rw [hworld]
        exact ⟨rfl, rfl⟩
      | drive =>
        rw [world_drive]
        exact ⟨rfl, rfl⟩
      | enter =>
        rw [world_drive]
        exact ⟨rfl, rfl⟩
      | idle | finish | look | calls | returns | add | remote | reader | forbid => exact ⟨rfl, rfl⟩

/-! ### What timers keep -/

/-- The timers keep the handles issued last, and each handle that was issued belongs to its timer on
its simulator. -/
structure Traced (past : TimerEvent → List (Nat × EventId)) (f : Fleet K E V) : Prop where
  handle : ∀ e id, f.world.memory.handle? e = some id →
    id = renewed ((past e).map (·.2)) .detached
  issued : ∀ e, past e ≠ [] → f.world.memory.Knows e
  owned : ∀ e i id, (i, id) ∈ past e → ∃ a, f.machine? i = some a ∧ a.sim.Owns id e.task

lemma traced_empty (bufferSize : Nat → Nat) (descriptors : String → Descriptor) (user : V) :
    (empty bufferSize descriptors user : Fleet K E V).Traced fun _ => [] where
  handle e id hid := by
    cases e <;> simp [empty, Memory.handle?, Memory.watchdog?, Memory.trickle?] at hid
  issued e hne := absurd rfl hne
  owned e i id hid := by cases hid

/-- What belongs to a timer goes on belonging to it. -/
lemma Sane.owns_move (hf : f.Sane) (c : FleetCode K E V) (mv : Move K E V)
    {a : Machine (Job K E) V} (ha : f.machine? i = some a) {id : EventId} {task : Task (Job K E)}
    (howns : a.sim.Owns id task) :
    ∃ b, (f.move c mv).machine? i = some b ∧ b.sim.Owns id task := by
  obtain ⟨turns, b, hb, hsees⟩ := hf.sees (f.outcome_move c mv) ha
  obtain ⟨hhealthy, hbroken, -⟩ := hf.of_machine? ha
  exact ⟨b, hb, howns.passage (hsees.follows hhealthy hbroken).2.1⟩

section

variable {frame : Frame (Job K E) V} {frames : List (Frame (Job K E) V)}
  {rest : List (Nat × List (Frame (Job K E) V))} {s : Simulator (Job K E)}

/-- What holds of the simulator whose run is on top. -/
lemma Sane.healthy_of_runs (hf : f.Sane) (hruns : f.runs = (i, frame :: frames) :: rest)
    (hs : f.world.sim? i = some s) :
    Machine.Healthy ⟨s, f.world.memory, frame :: frames, false⟩ := by
  obtain ⟨s', hs', ha⟩ := hf.machine_of_runs hruns
  obtain rfl := Option.some.inj (hs'.symm.trans hs)
  exact (hf.of_machine? ha).1

/-- The simulator whose run is on top, and the memory, behind a step. -/
lemma Sane.step_of_runs (hf : f.Sane) (c : FleetCode K E V)
    (hruns : f.runs = (i, frame :: frames) :: rest) (hdeed : frame.deed? = none)
    (hs : f.world.sim? i = some s) :
    let b := Machine.stepFrame c.code frame s f.world.memory frames
    (f.step c).world.sim? i = some b.sim ∧
      (f.step c).world.memory.watchdogs = b.memory.watchdogs ∧
      (f.step c).world.memory.trickles = b.memory.trickles ∧
      (f.step c).runs = (i, b.stack) :: rest := by
  intro b
  have hdelivers := Machine.delivers_step c.code ⟨s, f.world.memory, frame :: frames, false⟩
  rw [Fleet.step_of_runs hruns hdeed hs]
  exact ⟨World.sim?_put (World.of_sim? hs).1 (hdelivers.size.trans hf.size), rfl, rfl, rfl⟩

/-- Events of timers that a step issues belong to their timers. -/
lemma Sane.owns_issued (hf : f.Sane) (c : FleetCode K E V)
    (hruns : f.runs = (i, frame :: frames) :: rest) (hdeed : frame.deed? = none)
    (hs : f.world.sim? i = some s) {e : TimerEvent} {id : EventId}
    (hid : id ∈ issuedFor e (frame.turns s f.world.memory)) :
    ∃ b, (f.step c).machine? i = some b ∧ b.sim.Owns id e.task := by
  have hhealthy := hf.healthy_of_runs hruns hs
  obtain ⟨keys, htimely⟩ := hhealthy.timely
  obtain ⟨x, hx, hissued, htask, rfl⟩ := mem_issuedFor.mp hid
  -- no event is issued when the next one is taken off the queue
  have hnext : frame ≠ .next := by
    rintro rfl
    obtain ⟨⟨id, ev⟩, -, hx⟩ := List.mem_flatMap.mp hx
    exact (Simulator.of_mem_takeTurn hx).2 hissued
  obtain ⟨-, hcourse⟩ := Machine.course_stepFrame c.code frame s f.world.memory frames hnext
    htimely.delay_nonneg
  have howns := hhealthy.sound.owns_issued hcourse hx hissued
  rw [htask] at howns
  obtain ⟨hsim, -⟩ := hf.step_of_runs c hruns hdeed hs
  exact ⟨_, machine?_eq_some_iff.mpr ⟨_, hsim, rfl⟩, howns⟩

/-- A handle that a timer keeps is its own on a simulator, or names nothing there, or it was issued
last for this timer, and elsewhere. -/
lemma Traced.reaches (h : f.Traced past) (hf : f.Sane) (hs : f.world.sim? i = some s)
    {e : TimerEvent} {id : EventId} (hid : f.world.memory.handle? e = some id) :
    id.sequence < s.sequences.next ∧
        (∀ ev, s.find? id = some ev → (i, id) ∈ past e ∧ ev.task = e.task) ∨
      ∃ j ≠ i, (past e).getLast? = some (j, id) := by
  have hhandle := h.handle e id hid
  rw [renewed, List.getLast?_map] at hhandle
  cases hlast : (past e).getLast? with
  | none =>
    rw [hlast] at hhandle
    obtain ⟨a, ha, -, hhealthy⟩ := hf.healthy i (World.of_sim? hs).1
    obtain ⟨s', hs', rfl⟩ := machine?_eq_some_iff.mp ha
    obtain rfl := Option.some.inj (hs'.symm.trans hs)
    obtain rfl : id = .detached := hhandle
    refine Or.inl ⟨hhealthy.sound.next_pos, fun ev hev => ?_⟩
    rw [hhealthy.sound.find?_of_isDetached rfl] at hev
    cases hev
  | some last =>
    obtain ⟨j, id'⟩ := last
    rw [hlast] at hhandle
    obtain rfl : id = id' := hhandle
    by_cases hj : j = i
    · subst hj
      have hmem := List.mem_of_getLast? hlast
      obtain ⟨a, ha, howns⟩ := h.owned e j id hmem
      obtain ⟨s', hs', rfl⟩ := machine?_eq_some_iff.mp ha
      obtain rfl := Option.some.inj (hs'.symm.trans hs)
      exact Or.inl ⟨howns.1, fun ev hev => ⟨hmem, howns.2 ev hev⟩⟩
    · exact Or.inr ⟨j, hj, rfl⟩

end

/-- A move renews the handles that timers keep, and what it issues belongs to them. -/
lemma Sane.renews_move (hf : f.Sane) (c : FleetCode K E V) (mv : Move K E V) :
    ∃ turns, f.world.memory.Renews turns (f.move c mv).world.memory ∧ ∀ e,
      (f.issues e mv).map (·.2) = issuedFor e turns ∧
      ∀ i id, (i, id) ∈ f.issues e mv →
        ∃ a, (f.move c mv).machine? i = some a ∧ a.sim.Owns id e.task := by
  rcases f.move_cases c mv with ⟨i, frame, frames, rest, s, rfl, hruns, hdeed, hs⟩ |
    ⟨hnil, hwatchdogs, htrickles⟩
  · have hhealthy := hf.healthy_of_runs hruns hs
    obtain ⟨keys, htimely⟩ := hhealthy.timely
    obtain ⟨-, hwatchdogs, htrickles, -⟩ := hf.step_of_runs c hruns hdeed hs
    refine ⟨frame.turns s f.world.memory, ?_, fun e => ?_⟩
    · exact (Machine.renews_stepFrame c.code hhealthy.sound htimely hhealthy.orderly.userCode frame
        frames).congr hwatchdogs htrickles
    · rw [issues_of_runs hruns hs]
      refine ⟨by simp [List.map_map, Function.comp_def], fun j id hmem => ?_⟩
      obtain ⟨id', hid, heq⟩ := List.mem_map.mp hmem
      obtain ⟨rfl, rfl⟩ := Prod.mk.inj heq
      exact hf.owns_issued c hruns hdeed hs hid
  · refine ⟨[], .of_eq (fun _ => rfl) hwatchdogs htrickles, fun e => ?_⟩
    rw [hnil]
    exact ⟨rfl, fun i id hmem => by cases hmem⟩

lemma Traced.move (h : f.Traced past) (hf : f.Sane) (c : FleetCode K E V) (mv : Move K E V) :
    (f.move c mv).Traced fun e => past e ++ f.issues e mv := by
  obtain ⟨turns, hrenews, hissues⟩ := hf.renews_move c mv
  refine ⟨fun e id hid => ?_, fun e hne => ?_, fun e i id hmem => ?_⟩
  · rw [List.map_append, (hissues e).1, EventId.renewed_append]
    rcases hrenews.handle e id hid with ⟨old, hold, hnew⟩ | ⟨hnew, hdetached⟩
    · rw [hnew, h.handle e old hold]
    · have hpast : past e = [] := not_not.mp fun hne => hnew (h.issued e hne)
      have hturns : issuedFor e turns = [] := not_not.mp fun hne => hnew (hrenews.issued e hne)
      rw [hdetached, hpast, hturns]
      rfl
  · by_cases hpast : past e = []
    · rw [hpast, List.nil_append] at hne
      refine hrenews.knows e (hrenews.issued e fun hnil => hne ?_)
      rwa [← (hissues e).1, List.map_eq_nil_iff] at hnil
    · exact hrenews.knows e (h.issued e hpast)
  · rcases List.mem_append.mp hmem with hold | hnew
    · obtain ⟨a, ha, howns⟩ := h.owned e i id hold
      exact hf.owns_move c mv ha howns
    · exact (hissues e).2 i id hnew

lemma Traced.play (h : f.Traced past) (hf : f.Sane) (c : FleetCode K E V)
    (moves : List (Move K E V)) :
    (f.play c moves).Traced fun e => past e ++ f.issuedIn c e moves := by
  induction moves generalizing f past with
  | nil =>
    simp only [issuedIn, List.append_nil]
    exact h
  | cons mv moves ih =>
    have hlater := ih (h.move hf c mv) (hf.move c mv)
    simp only [List.append_assoc] at hlater
    exact hlater

/-- Whoever a timer belongs to, and on whichever simulators it is used: only operations of the timer
schedule its events. An operation on one simulator concerns events there that the timer has
scheduled there itself, and a ping that succeeds leaves an expiry pending there, unless the timer
has scheduled last on another simulator and its handle names an event here by chance. -/
theorem timers_keep_to_own_events (c : FleetCode K E V) (bufferSize : Nat → Nat)
    (descriptors : String → Descriptor) (user : V) (moves : List (Move K E V)) :
    let start := empty bufferSize descriptors user
    let f := start.play c moves
    let past e := start.issuedIn c e moves
    ∀ i frame frames rest s, f.runs = (i, frame :: frames) :: rest → f.world.sim? i = some s →
      (∀ e : TimerEvent, ∀ x ∈ frame.turns s f.world.memory,
        x.fate = .issued → x.event.task = e.task → frame.serves e) ∧
      (∀ e, frame.serves e → ∀ x ∈ frame.turns s f.world.memory, ∃ e, frame.serves e ∧
        (x.fate = .issued ∧ x.event.task = e.task ∨
          f.world.memory.handle? e = some x.id ∧
            ((i, x.id) ∈ past e ∧ x.event.task = e.task ∨
              ∃ j ≠ i, (past e).getLast? = some (j, x.id)))) ∧
      ∀ w delay next d, frame = .exec (.ask (.watchdog w (.ping delay)) next) →
        f.world.memory.watchdog? w = some d → (d.ping w delay s).1 = .ok () →
        ∃ t id ev, (f.step c).world.sim? i = some t ∧
          (f.step c).world.memory.handle? (.expiry w) = some id ∧ t.find? id = some ev ∧
          ev.cancelled = false ∧
          ((i, id) ∈ past (.expiry w) ++ f.issues (.expiry w) .step ∧ ev.task = .watchdog w ∨
            ∃ j ≠ i, (past (.expiry w)).getLast? = some (j, id)) := by
  intro start f past i frame frames rest s hruns hs
  have hsane : f.Sane := (sane_empty bufferSize descriptors user).play c moves
  have htraced : f.Traced past :=
    (traced_empty bufferSize descriptors user).play (sane_empty ..) c moves
  have hhealthy := hsane.healthy_of_runs hruns hs
  obtain ⟨keys, htimely⟩ := hhealthy.timely
  refine ⟨fun e x hx hissued htask => ?_, fun e hserves x hx => ?_, ?_⟩
  · exact Frame.serves_of_issued hhealthy.sound htimely hhealthy.orderly.userCode hx hissued htask
  · rcases Frame.confined_of_serves hhealthy.sound hserves x hx with
      ⟨hissued, e, he, htask⟩ | ⟨hnot, e, he, hhandle⟩
    · exact ⟨e, he, Or.inl ⟨hissued, htask⟩⟩
    · refine ⟨e, he, Or.inr ⟨hhandle, ?_⟩⟩
      have hnext : frame ≠ .next := by
        rintro rfl
        cases hserves
      obtain ⟨-, hcourse⟩ := Machine.course_stepFrame c.code frame s f.world.memory frames hnext
        htimely.delay_nonneg
      refine (htraced.reaches hsane hs hhandle).imp_left fun ⟨hlt, hown⟩ => ?_
      rcases hhealthy.sound.held_of_not_issued hcourse hx hnot with ⟨ev, hev, htask⟩ | hnew
      · rw [← htask]
        exact hown ev hev
      · exact absurd hlt (Nat.not_lt.mpr hnew)
  · rintro w delay next d rfl hd hok
    obtain ⟨hsim, hwatchdogs, -⟩ := hsane.step_of_runs c hruns rfl hs
    have happly : (Request.watchdog w (.ping delay)).apply s f.world.memory =
        (some (d.ping w delay s).1, (d.ping w delay s).2.2,
          f.world.memory.setWatchdog w (some (d.ping w delay s).2.1)) := by
      rw [Request.apply, hd]
      rfl
    rw [Machine.stepFrame, Machine.exec, happly] at hsim hwatchdogs
    have hhandle : (f.step c).world.memory.handle? (.expiry w) =
        some (d.ping w delay s).2.1.event := by
      rw [Memory.handle?, Memory.watchdog?_congr hwatchdogs, Memory.watchdog?_setWatchdog,
        if_pos ⟨rfl, Memory.lt_size_of_watchdog? hd⟩]
      rfl
    have hsane' : (f.step c).Sane := hsane.move c .step
    have htraced' : (f.step c).Traced fun e => past e ++ f.issues e .step :=
      htraced.move hsane c .step
    -- the event that the watchdog names behind the ping
    have hpending := Watchdog.isExpired_ping (w := w) hhealthy.sound hok
    have hsound := (hhealthy.sound.passage (d.course_ping w delay s).course).sound
    obtain ⟨ev, hev, hlive, -⟩ := hsound.delayLeft_of_pending hpending
    refine ⟨_, _, ev, hsim, hhandle, hev, hlive, ?_⟩
    rcases htraced'.reaches hsane' hsim hhandle with ⟨-, hown⟩ | ⟨j, hj, hlast⟩
    · exact Or.inl (hown ev hev)
    · right
      refine ⟨j, hj, ?_⟩
      rw [issues_of_runs hruns hs, List.getLast?_append, List.getLast?_map] at hlast
      let ping : Frame (Job K E) V := .exec (.ask (.watchdog w (.ping delay)) next)
      cases hids : (issuedFor (.expiry w) (ping.turns s f.world.memory)).getLast? with
      | none =>
        rw [hids] at hlast
        exact hlast
      | some id =>
        rw [hids] at hlast
        exact absurd (congrArg Prod.fst (Option.some.inj hlast)).symm hj

/-- A watchdog is made and pinged on the first simulator. -/
def pinging : List (Move Unit Unit Unit) :=
  [.add .list 1 .sequential, .add .list 1 .sequential, .enter 0 id (.ask (.newWatchdog (.user ()))
    fun w => .ask (.watchdog w (.ping (.clamp 10))) fun _ => .done ())] ++ List.replicate 4 .step

/-- The watchdog is pinged on the second simulator as well. An event of the user is scheduled there,
and then the watchdog is to be pinged again. -/
def settling : List (Move Unit Unit Unit) :=
  pinging ++ [.enter 1 id (.ask (.watchdog 0 (.ping (.clamp 20))) fun _ =>
    .ask (.sim (.schedule (.clamp 20) (.user ()))) fun _ =>
      .ask (.watchdog 0 (.ping (.clamp 5))) fun _ => .done ()), .step, .step]

theorem timers_keep_to_own_events_second_ping :
    let f := blank.play plain settling
    let past := blank.issuedIn plain (.expiry 0) settling
    past = [(0, .queued 0 1), (1, .queued 0 1)] ∧
      ∃ next s d t id ev, f.runs = [(1, [.exec (.ask (.watchdog 0 (.ping (.clamp 5))) next)])] ∧
        f.world.sim? 1 = some s ∧ f.world.memory.watchdog? 0 = some d ∧
        (d.pingTurns 0 (.clamp 5) s).map (fun x => (x.id, x.fate)) =
          [(.queued 0 1, .cancelled), (.queued 2 3, .issued)] ∧
        (∀ x ∈ d.pingTurns 0 (.clamp 5) s, x.event.task = .watchdog 0) ∧
        (f.step plain).world.sim? 1 = some t ∧ t.find? id = some ev ∧ ev.cancelled = false ∧
        ev.task = .watchdog 0 := by
  intro f past
  have hpast : past = [(0, .queued 0 1), (1, .queued 0 1)] := by decide +kernel
  have hlast : ¬∃ j ≠ 1, ∃ id, past.getLast? = some (j, id) := by
    rw [hpast]
    rintro ⟨j, hj, id, hlast⟩
    exact hj (congrArg Prod.fst (Option.some.inj hlast)).symm
  obtain ⟨next, hruns⟩ : ∃ next, f.runs =
      [(1, [.exec (.ask (.watchdog 0 (.ping (.clamp 5))) next)])] := ⟨_, rfl⟩
  have hping : ((f.world.sim? 1).bind fun s => (f.world.memory.watchdog? 0).map fun d =>
      ((d.ping 0 (.clamp 5) s).1.isOk, (d.pingTurns 0 (.clamp 5) s).map fun x => (x.id, x.fate))) =
        some (true, [(.queued 0 1, .cancelled), (.queued 2 3, .issued)]) := by
    decide +kernel
  obtain ⟨s, hs, hping⟩ := Option.bind_eq_some_iff.mp hping
  obtain ⟨d, hd, hping⟩ := Option.map_eq_some_iff.mp hping
  obtain ⟨hok, hturns⟩ := Prod.mk.inj hping
  have hok : (d.ping 0 (.clamp 5) s).1 = .ok () := by
    cases h : (d.ping 0 (.clamp 5) s).1 with
    | ok u => rfl
    | error e =>
      rw [h] at hok
      cases hok
  obtain ⟨-, hown, hleft⟩ := timers_keep_to_own_events plain (fun _ => 1) (fun _ => .pipe {}) ()
    settling 1 _ _ _ s hruns hs
  obtain ⟨t, id, ev, ht, -, hev, hlive, hexpiry⟩ := hleft 0 _ _ d rfl hd hok
  refine ⟨hpast, next, s, d, t, id, ev, hruns, hs, hd, hturns, fun x hx => ?_, ht, hev, hlive, ?_⟩
  · have hx' : x ∈ (Frame.exec (.ask (.watchdog 0 (.ping (.clamp 5))) next)).turns s
        f.world.memory := by
      rw [Frame.turns, Request.turns, hd, Option.toList_some, List.flatMap_singleton]
      exact hx
    obtain ⟨e, he, hissued | ⟨hhandle, hown | ⟨j, hj, hlast'⟩⟩⟩ := hown (.expiry 0) rfl x hx'
    · rw [hissued.2, of_decide_eq_true he]
      rfl
    · rw [hown.2, of_decide_eq_true he]
      rfl
    · rw [of_decide_eq_true he] at hlast'
      exact absurd ⟨j, hj, _, hlast'⟩ hlast
  · rcases hexpiry with ⟨-, htask⟩ | ⟨j, hj, hlast'⟩
    · exact htask
    · exact absurd ⟨j, hj, _, hlast'⟩ hlast

/-- The watchdog was pinged on the first simulator only. An event of the user is scheduled on the
second one, and then the watchdog is to be pinged there. -/
def straying (delay : Time) : List (Move Unit Unit Unit) :=
  pinging ++ [.enter 1 id (.ask (.sim (.schedule (.clamp 20) (.user ()))) fun _ =>
    .ask (.watchdog 0 (.ping delay)) fun _ => .done ()), .step]

/-- The watchdog has scheduled nothing on the second simulator, but its handle names the event of
the user there. A ping with a delay that ends before this event cancels it. A ping with a longer
delay succeeds, too, and leaves no expiry pending. -/
theorem ping_takes_event_for_own :
    let f := blank.play plain (straying (.clamp 5))
    let g := blank.play plain (straying (.clamp 25))
    (∃ next, f.runs = [(1, [.exec (.ask (.watchdog 0 (.ping (.clamp 5))) next)])]) ∧
      blank.issuedIn plain (.expiry 0) (straying (.clamp 5)) = [(0, .queued 0 1)] ∧
      (∃ s d ev, f.world.sim? 1 = some s ∧ f.world.memory.watchdog? 0 = some d ∧
        s.find? (.queued 0 1) = some ev ∧ ev.task = .user (.user ()) ∧
        ⟨.queued 0 1, .cancelled, ev⟩ ∈ d.pingTurns 0 (.clamp 5) s) ∧
      (∃ next, g.runs = [(1, [.exec (.ask (.watchdog 0 (.ping (.clamp 25))) next)])]) ∧
      blank.issuedIn plain (.expiry 0) (straying (.clamp 25)) = [(0, .queued 0 1)] ∧
      (∃ s d, g.world.sim? 1 = some s ∧ g.world.memory.watchdog? 0 = some d ∧
        (d.ping 0 (.clamp 25) s).1 = .ok ()) ∧
      ((g.step plain).world.sim? 1).map (fun t => t.handles.filterMap fun id =>
        (t.find? id).bind (·.task.timerEvent?)) = some [] := by
  refine ⟨⟨_, rfl⟩, by decide +kernel, ⟨_, _, _, rfl, rfl, rfl, rfl, ?_⟩, ⟨_, rfl⟩,
    by decide +kernel, ⟨_, _, rfl, rfl, rfl⟩, by decide +kernel⟩
  exact List.mem_cons_self

end Fleet

end EventKernel
