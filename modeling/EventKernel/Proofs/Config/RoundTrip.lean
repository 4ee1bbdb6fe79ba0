import EventKernel.Command.Run
import EventKernel.Config.Json
import EventKernel.Proofs.Json.RoundTrip

/-!
# Reading back a configuration

A configuration is the same after it has been written as JSON and read again, indented or not, and
`config` prints such a text. Each part is read back from what is written for it: a record by its
fields, a unit, a kind of queue and a mode by their names, a number because it lies in its range.
-/

namespace EventKernel

/-! ### Records -/

namespace Json

variable {fields : List (String × Json)}

/-- A field whose name stands once is found by its name. -/
lemma filter_name_eq (h : (fields.map Prod.fst).Nodup) {m : String × Json} (hm : m ∈ fields) :
    ((fields.map fun (k, v) => (some k, v)).filter fun e => e.1 = some m.1) =
      [(some m.1, m.2)] := by
  induction fields with
  | nil => cases hm
  | cons e fields ih =>
    obtain ⟨hne, h⟩ := List.nodup_cons.mp h
    rcases List.mem_cons.mp hm with rfl | hm
    · have hrest :
          ((fields.map fun (k, v) => (some k, v)).filter fun e => e.1 = some m.1) = [] := by
        simp only [List.filter_eq_nil_iff, List.mem_map, decide_eq_true_eq]
        rintro _ ⟨e, he, rfl⟩ heq
        exact hne (Option.some.inj heq ▸ List.mem_map_of_mem he)
      rw [List.map_cons, List.filter_cons_of_pos (by simp), hrest]
    · have hother : e.1 ≠ m.1 := fun heq => hne (heq ▸ List.mem_map_of_mem hm)
      rw [List.map_cons, List.filter_cons_of_neg (by simpa using hother), ih h hm]

lemma mapM_map_eq_some {α β γ : Type} {f : β → Option γ} {k : α → β} {g : α → γ} {l : List α}
    (h : ∀ a ∈ l, f (k a) = some (g a)) : (l.map k).mapM f = some (l.map g) := by
  induction l with
  | nil => rfl
  | cons a l ih =>
    rw [List.map_cons, List.mapM_cons, h a List.mem_cons_self,
      ih fun b hb => h b (List.mem_cons_of_mem a hb)]
    rfl

/-- A record that holds each of its fields once is read field by field. -/
lemma fields?_record {names : List String} (hnames : fields.map Prod.fst = names)
    (h : names.Nodup) : (record fields).fields? names = some (fields.map fun m => some m.2) := by
  subst hnames
  rw [record, fields?, if_pos (by simp)]
  refine mapM_map_eq_some fun m hm => ?_
  rw [filter_name_eq h hm]

@[simp]
lemma spelled_text (s : String) : (text s).Spelled := rfl

@[simp]
lemma spelled_integer (n : Int) : (integer n).Spelled := trivial

@[simp]
lemma spelled_record : (record fields).Spelled ↔ ∀ m ∈ fields, m.2.Spelled := by
  induction fields with
  | nil => exact iff_of_true trivial (fun _ hm => absurd hm List.not_mem_nil)
  | cons m fields ih =>
    rw [List.forall_mem_cons, ← ih]
    exact and_iff_right rfl

lemma integerIn?_integer {r : IntRange} {n : Int} (h : r.low ≤ n ∧ n ≤ r.high) :
    integerIn? r (.integer n) = some n := by
  rw [integerIn?, if_pos]
  simpa [IntRange.holds] using h

lemma word64?_integer (w : UInt64) : word64? (.integer w.toNat) = some w := by
  have := w.toNat_lt
  rw [word64?, integerIn?_integer ⟨by simp [IntRange.word64], by simp [IntRange.word64]; omega⟩]
  simp

end Json

/-! ### The parts of a configuration -/

lemma TimeUnit.ofJson?_name (u : TimeUnit) : ofJson? (.text u.name) = some u := by
  cases u <;> rfl

lemma QueueKind.ofJson?_name (k : QueueKind) : ofJson? (.text k.name) = some k := by
  cases k <;> rfl

namespace SyncMode

lemma conservativeOfJson?_record (id : UInt32) (window : Time) :
    conservativeOfJson? (.record [("system_id", .integer id.toNat),
      ("lookahead", .integer window.ticks)]) = some (.conservative id window) := by
  have := id.toNat_lt
  have hid : Json.integerIn? .word32 (.integer id.toNat) = some (id.toNat : Int) :=
    Json.integerIn?_integer ⟨by simp [IntRange.word32], by simp [IntRange.word32]; omega⟩
  have hwindow : Json.integerIn? .signed64 (.integer window.ticks) = some window.ticks :=
    Json.integerIn?_integer ⟨window.le_ticks, Int.le_of_lt_add_one window.ticks_lt⟩
  simp [conservativeOfJson?, Json.fields?_record, hid, hwindow, Time.clamp_ticks]

lemma ofJson?_toJson (m : SyncMode) : ofJson? m.toJson = some m := by
  cases m with
  | sequential => rfl
  | conservative id window =>
    have hcontent : ∀ v, ofJson? (.record [("Conservative", v)]) = conservativeOfJson? v :=
      fun _ => rfl
    rw [toJson, hcontent, conservativeOfJson?_record]

end SyncMode

namespace Config

lemma stopOfJson?_stopToJson (stop : Option Int64) :
    stopOfJson? (some (stopToJson stop)) = some stop := by
  cases stop with
  | none => rfl
  | some nanos =>
    have := nanos.le_toInt
    have := nanos.toInt_lt
    have hnanos : Json.integerIn? .signed64 (.integer nanos.toInt) = some nanos.toInt :=
      Json.integerIn?_integer ⟨by simpa [IntRange.signed64], by simp [IntRange.signed64]; omega⟩
    simp [stopToJson, stopOfJson?, hnanos]

/-- A configuration is read back from the JSON value that is written for it. -/
lemma ofJson?_toJson (c : Config) : ofJson? c.toJson = some c := by
  simp [ofJson?, toJson, Json.fields?_record, timeOfJson?, schedulerOfJson?, runOfJson?,
    readerOfJson?, TimeUnit.ofJson?_name, QueueKind.ofJson?_name, Json.word64?_integer,
    stopOfJson?_stopToJson, SyncMode.ofJson?_toJson]

/-- All strings in a configuration that is written have a value. -/
lemma spelled_toJson (c : Config) : c.toJson.Spelled := by
  have hstop : (stopToJson c.stopAfterNanos).Spelled := by
    cases c.stopAfterNanos <;> exact trivial
  have hsync : c.sync.toJson.Spelled := by
    cases c.sync <;> simp [SyncMode.toJson]
  simp [toJson, hstop, hsync]

/-- A configuration is read back from its text, whatever blanks stand behind it. -/
lemma read?_write (c : Config) (pretty : Option Nat) (blanks : List Char)
    (hblanks : ∀ b ∈ blanks, Json.isSpace b = true) :
    read? (String.ofList (c.toJson.write pretty ++ blanks)) = some c := by
  rw [read?, Json.read?_write c.spelled_toJson pretty hblanks, Option.bind_some, ofJson?_toJson]

/-- Any configuration is the same after it has been written as JSON and read again: without blanks,
indented, and as the command `config` prints it, which it does for each configuration that passes
its own check. -/
theorem json_round_trip (c : Config) :
    read? c.toJson.compact = some c ∧ read? c.toJson.pretty = some c ∧
      (c.validate = .ok ⟨⟩ → ∃ text, Command.showConfig c = .ok text ∧ read? text = some c) := by
  refine ⟨?_, ?_, fun hvalid => ⟨c.toJson.pretty ++ "\n", ?_, ?_⟩⟩
  · have hread := c.read?_write none [] (by simp)
    rwa [List.append_nil] at hread
  · have hread := c.read?_write (some 0) [] (by simp)
    rwa [List.append_nil] at hread
  · rw [Command.showConfig, hvalid]
  · have hread := c.read?_write (some 0) ['\n'] (by simp [Json.isSpace])
    rwa [String.ofList_append] at hread

end Config

end EventKernel
