import EventKernel.Proofs.Relay.Flow

/-!
# A run of a relay

A run of the simulator of a relay empties the inbox and takes events off the queue until nothing is
left, or until it has come upon the stop that a simulator may have been built with. Either way there
is no stop in the queue behind it. So only the first run can be cut short, and a run that nothing
comes in between leaves neither inbox nor queue with an event.
-/

namespace EventKernel

namespace Relay

open Machine (keysOf)

variable {latency : Time} {context : ContextId} {chunks : List (List UInt8)}
  {taken : List (EventId × Event (Task RelayCode))} {queue : List (Event (Task RelayCode))}
  {s t : Simulator RelayCode} {m : Memory RelayCode State} {last : Bool}
  {stack frames : List (Frame RelayCode State)} {frame : Frame RelayCode State}
  {keys : List EventKey}

/-- What a run does not touch: the other inboxes, the reader and its input. -/
structure Untouched (m m' : Memory RelayCode State) : Prop where
  inboxes : m'.inboxes = m.inboxes
  reader : m'.user.reader = m.user.reader
  input : m'.user.input = m.user.input

lemma Untouched.trans {m m' m'' : Memory RelayCode State} (h : Untouched m m')
    (h' : Untouched m' m'') : Untouched m m'' where
  inboxes := h'.inboxes.trans h.inboxes
  reader := h'.reader.trans h.reader
  input := h'.input.trans h.input

/-- A program that asks the simulator for nothing it would change, and leaves the reader alone. -/
inductive Mild : Program RelayCode State PUnit → Prop where
  | done (a : PUnit) : Mild (.done a)
  | ask {r : Request RelayCode State} {next : r.Reply → Program RelayCode State PUnit}
      (hsim : ∀ s m, (r.apply s m).2.1 = s)
      (hmemory : ∀ s m, Untouched m (r.apply s m).2.2)
      (hnext : ∀ a, Mild (next a)) : Mild (.ask r next)

lemma mild_printChunk (text : String) : Mild (printChunk text) :=
  .ask (fun _ _ => rfl) (fun _ _ => ⟨rfl, rfl, rfl⟩) fun _ =>
    .ask (fun _ _ => rfl) (fun _ _ => ⟨rfl, rfl, rfl⟩) fun _ =>
      .ask (fun _ _ => rfl) (fun _ _ => ⟨rfl, rfl, rfl⟩) fun a => .done a

lemma step_oneRun (hphase : s.phase = .notRunning ∨ s.phase = .stopped)
    (m : Memory RelayCode State) :
    Machine.step code ⟨s, m, [.exec oneRun], false⟩ =
      ⟨{ s with phase := .running }, m, [.loop, .exec (.done ())], false⟩ := by
  rcases hphase with hphase | hphase <;>
    simp [Machine.step, Machine.stepFrame, Machine.exec, oneRun, hphase]

/-- The counter neither sends messages nor touches the reader. -/
lemma notify_code (info : EventInfo) (s : Simulator RelayCode) (m : Memory RelayCode State) :
    (Machine.notify code info s m).1 = s ∧ Untouched m (Machine.notify code info s m).2 := by
  rw [Machine.notify]
  cases s.observer with
  | none => exact ⟨rfl, rfl, rfl, rfl⟩
  | some k =>
    cases k with
    | count context =>
      dsimp only [code]
      split <;> exact ⟨rfl, rfl, rfl, rfl⟩
    | print | teardown => exact ⟨rfl, rfl, rfl, rfl⟩

/-- A run that came to its end. It took off the stop, if there was one; and the last run took off
everything. -/
structure Ended (last : Bool) (s : Simulator RelayCode) : Prop where
  phase : s.phase = .stopped
  stopRequested : s.stopRequested = false
  unstopped : Unstopped s
  empty : last = true → s.scheduler.arena.entries = [] ∧ s.inbox.events = #[]

/-- A request to stop comes from the one stop in the queue, and never in the last run. -/
structure Halts (last : Bool) (s : Simulator RelayCode) : Prop where
  requested : s.stopRequested = true → Unstopped s
  last : last = true → s.stopRequested = false ∧ Unstopped s

/-- What is left to do in a run. -/
inductive Stands (last : Bool) (s : Simulator RelayCode) : List (Frame RelayCode State) → Prop where
  | entry (hphase : s.phase = .notRunning ∨ s.phase = .stopped) :
      Stands last s [.exec oneRun]
  | loop : Stands last s [.loop, .exec (.done ())]
  | next (hempty : last = true → s.inbox.events = #[]) : Stands last s [.next, .exec (.done ())]
  | stopping {c : ContextId} (hnone : Unstopped s) (hlast : last = false) :
      Stands last s [.task .stop, .restore c, .loop, .exec (.done ())]
  | starting {c : ContextId} (chunk : List UInt8) :
      Stands last s [.task (printing chunk), .restore c, .loop, .exec (.done ())]
  | printing {p : Program RelayCode State PUnit} {c : ContextId} (hp : Mild p) :
      Stands last s [.exec p, .restore c, .loop, .exec (.done ())]
  | restoring {c : ContextId} : Stands last s [.restore c, .loop, .exec (.done ())]
  | leaving (hended : Ended last s) : Stands last s [.exec (.done ())]
  | rest (hended : Ended last s) : Stands last s []

/-- What holds inside a run. -/
structure Within (latency : Time) (context : ContextId) (chunks : List (List UInt8))
    (taken : List (EventId × Event (Task RelayCode))) (last : Bool)
    (stack : List (Frame RelayCode State)) (s : Simulator RelayCode) : Prop where
  flow : ∃ queue, Flow latency context chunks taken queue s
  opened : s.inbox.closed = false ∧ s.inbox.stop = false
  halts : Halts last s
  stands : Stands last s stack

namespace Within

/-- What is neither stored nor waits changes. -/
lemma quiet (h : Within latency context chunks taken last stack s)
    (hscheduler : t.scheduler = s.scheduler) (hnow : t.now = s.now) (hinbox : t.inbox = s.inbox)
    (hhalts : Halts last t) (hstands : Stands last t frames) :
    Within latency context chunks taken last frames t where
  flow := h.flow.imp fun _ hflow => hflow.congr hscheduler hnow (by rw [hinbox])
  opened := by rw [hinbox]; exact h.opened
  halts := hhalts
  stands := hstands

/-- A round of the loop begins. -/
lemma drain (h : Within latency context chunks taken last stack s) (hs : s.Sound)
    (ht : s.Timely keys) :
    Within latency context chunks taken last [.next, .exec (.done ())] s.drainInbox := by
  obtain ⟨queue, hflow⟩ := h.flow
  obtain ⟨queue', hflow', hempty⟩ := hflow.drain hs ht
  obtain ⟨hinbox, hrequested⟩ := Simulator.inbox_drainInbox s
  have hunstopped : Unstopped s → Unstopped s.drainInbox := by
    intro hunstopped id ev hev
    rcases (hs.get?_drainInbox ht.delay_nonneg).mp hev with hev | ⟨x, hx, -, rfl⟩
    · exact hunstopped id ev hev
    · exact (hflow.task_of_insertion hx).2
  refine ⟨⟨queue', hflow'⟩, by rw [hinbox]; exact h.opened, ⟨?_, ?_⟩, .next fun _ => hempty⟩
  · rw [hrequested]
    exact fun hstop => hunstopped (h.halts.requested hstop)
  · rw [hrequested]
    exact fun hlast => (h.halts.last hlast).imp_right hunstopped

/-- The run comes to its end. -/
lemma finish (h : Within latency context chunks taken last stack s)
    (hempty : last = true → s.inbox.events = #[])
    (hfinish : s.stopPending = true ∨ s.scheduler.arena.entries = []) :
    Within latency context chunks taken last [.exec (.done ())] (Machine.finishRun s) := by
  have hpending : s.stopPending = s.stopRequested := by
    rw [Simulator.stopPending, h.opened.2, Bool.or_false]
  have hunstopped : Unstopped s := by
    rcases hfinish with hstop | hnil
    · exact h.halts.requested (hpending ▸ hstop)
    · intro id ev hev
      obtain ⟨e, he, -⟩ := Simulator.mem_entries_of_get? hev
      rw [hnil] at he
      cases he
  have hended : Ended last (Machine.finishRun s) := by
    refine ⟨rfl, rfl, hunstopped, fun hlast => ⟨?_, hempty hlast⟩⟩
    refine hfinish.resolve_left ?_
    rw [hpending, (h.halts.last hlast).1]
    exact Bool.false_ne_true
  refine ⟨?_, ⟨h.opened.1, rfl⟩, ⟨fun _ => hunstopped, fun _ => ⟨rfl, hunstopped⟩⟩, .leaving hended⟩
  exact h.flow.imp fun _ hflow => hflow.congr rfl rfl rfl

/-- An event is taken off the queue, and its task is about to start. -/
lemma take (h : Within latency context chunks taken last stack s) (ht : s.Timely keys)
    (hgoes : s.stopPending = false) {id : EventId} {ev : Event (Task RelayCode)}
    {q : Scheduler (Task RelayCode)} (hnext : s.scheduler.removeNext = (some (id, ev), q))
    (c c' : ContextId) (n : Nat) :
    ev.cancelled = false ∧ Within latency context chunks (taken ++ [(id, ev)]) last
      [.task ev.task, .restore c, .loop, .exec (.done ())]
      { s with scheduler := q, now := ev.key.time, context := c', eventCount := n } := by
  obtain ⟨queue, hflow⟩ := h.flow
  obtain ⟨hev, hq⟩ := ht.consistent.get?_removeNext hnext
  obtain ⟨hstop, queue', hflow'⟩ := hflow.take ht hnext
  have hrequested : s.stopRequested = false := (Bool.or_eq_false_iff.mp hgoes).1
  have hlast : last = true → Unstopped { s with scheduler := q, now := ev.key.time } := by
    intro hlast id' ev' hev'
    have hold : q.get? id' = some ev' := hev'
    rw [hq] at hold
    split at hold
    · cases hold
    · exact (h.halts.last hlast).2 id' ev' hold
  refine ⟨hflow.live id ev hev, ⟨queue', hflow'.congr rfl rfl rfl⟩, h.opened, ⟨?_, ?_⟩, ?_⟩
  · intro hstop
    cases hrequested.symm.trans hstop
  · exact fun hl => ⟨hrequested, hlast hl⟩
  · by_cases htask : ev.task = .stop
    · rw [htask]
      refine .stopping (hstop htask) (Bool.eq_false_iff.mpr fun hlast => ?_)
      exact (h.halts.last hlast).2 id ev hev htask
    · obtain ⟨chunk, hchunk⟩ := hflow.printing_of_mem ((hflow.mem_iff ev).mpr ⟨id, hev, htask⟩)
      rw [hchunk]
      exact .starting chunk

/-- The state in which the task of an event is about to start. -/
lemma launch_code (id : EventId) (ev : Event (Task RelayCode)) (s : Simulator RelayCode)
    (m : Memory RelayCode State) (rest : List (Frame RelayCode State)) :
    ∃ m', Machine.launch code id ev s m rest =
        ⟨{ s with context := ev.context, eventCount := s.eventCount + 1 }, m',
          .task ev.task :: .restore s.context :: .loop :: rest, false⟩ ∧ Untouched m m' := by
  have hnotify := notify_code ⟨id, ev.key.time, ev.context⟩ s m
  rw [Machine.launch]
  generalize Machine.notify code ⟨id, ev.key.time, ev.context⟩ s m = r at hnotify ⊢
  obtain ⟨t, m'⟩ := r
  obtain ⟨rfl, hm⟩ := hnotify
  exact ⟨m', rfl, hm⟩

/-- A round of the loop takes an event off the queue, or the run comes to its end. -/
lemma stepNext (h : Within latency context chunks taken last stack s) (ht : s.Timely keys)
    (m : Memory RelayCode State) (hempty : last = true → s.inbox.events = #[]) :
    let b := Machine.takeNext code s m [.exec (.done ())]
    Within latency context chunks (taken ++ s.upcoming?.toList) last b.stack b.sim ∧
      Untouched m b.memory := by
  intro b
  have hround := Machine.round_takeNext code m [.exec (.done ())] ht.consistent ht.now_le
  change Machine.Round code s m _ b at hround
  generalize b = b at hround
  cases hround with
  | finish hnone hfinish =>
    rw [hnone, Option.toList_none, List.append_nil]
    exact ⟨h.finish hempty hfinish, rfl, rfl, rfl⟩
  | pass hsome hnext hcancelled =>
    have hlive := (h.take ht (Simulator.upcoming?_eq_some_iff.mp hsome).1 hnext s.context s.context 0).1
    cases hcancelled.symm.trans hlive
  | @start id ev q hsome hnext hlive =>
    rw [hsome]
    obtain ⟨m', hlaunch, hkept⟩ := launch_code id ev
      { s with scheduler := q, now := ev.key.time } m [.exec (.done ())]
    rw [hlaunch]
    have htake := h.take ht (Simulator.upcoming?_eq_some_iff.mp hsome).1 hnext s.context ev.context
      (s.eventCount + 1)
    exact ⟨htake.2, hkept⟩

/-- What holds inside a run is kept by its steps. -/
lemma step (h : Within latency context chunks taken last (frame :: frames) s) (hs : s.Sound)
    (ht : s.Timely keys) (m : Memory RelayCode State) :
    let a : Machine RelayCode State := ⟨s, m, frame :: frames, false⟩
    let b := Machine.step code a
    Within latency context chunks (taken ++ a.taken?.toList) last b.stack b.sim ∧
      Untouched m b.memory := by
  intro a b
  have hquiet : ∀ {stack} {t : Simulator RelayCode}, a.taken? = none → t.scheduler = s.scheduler →
      t.now = s.now → t.inbox = s.inbox → Halts last t → Stands last t stack →
      Within latency context chunks (taken ++ a.taken?.toList) last stack t := by
    intro stack t hnone hscheduler hnow hinbox hhalts hstands
    rw [hnone, Option.toList_none, List.append_nil]
    exact h.quiet hscheduler hnow hinbox hhalts hstands
  have hhalts := h.halts
  cases h.stands with
  | entry hphase =>
    have hb : b = _ := step_oneRun hphase m
    rw [hb]
    exact ⟨hquiet rfl rfl rfl rfl { hhalts with } .loop, rfl, rfl, rfl⟩
  | loop =>
    refine ⟨?_, rfl, rfl, rfl⟩
    show Within latency context chunks (taken ++ []) last _ s.drainInbox
    rw [List.append_nil]
    exact h.drain hs ht
  | next hempty => exact h.stepNext ht m hempty
  | stopping hnone hlast =>
    have hhalts' : Halts last b.sim := ⟨fun _ => hnone, fun hl => by cases hlast.symm.trans hl⟩
    exact ⟨hquiet rfl rfl rfl rfl hhalts' .restoring, rfl, rfl, rfl⟩
  | starting chunk =>
    exact ⟨hquiet rfl rfl rfl rfl hhalts (.printing (mild_printChunk _)), rfl, rfl, rfl⟩
  | printing hp =>
    cases hp with
    | done => exact ⟨hquiet rfl rfl rfl rfl hhalts .restoring, rfl, rfl, rfl⟩
    | @ask r next hsim hmemory hnext =>
      have hsame : b.sim = s := hsim s m
      rw [hsame]
      exact ⟨hquiet rfl rfl rfl rfl hhalts (.printing (hnext _)), hmemory s m⟩
  | restoring => exact ⟨hquiet rfl rfl rfl rfl { hhalts with } .loop, rfl, rfl, rfl⟩
  | leaving hended => exact ⟨hquiet rfl rfl rfl rfl hhalts (.rest hended), rfl, rfl, rfl⟩

end Within

end Relay

end EventKernel
