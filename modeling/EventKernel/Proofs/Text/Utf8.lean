import EventKernel.Text.Utf8
import Mathlib.Data.List.Basic

/-!
# UTF-8 in pieces

A text that comes in pieces can be decoded piece by piece, as long as no piece begins in the middle
of a character. Where one does, a lenient reader writes more characters than there are: every piece
gives at least one item for each byte that does not continue a character, and one more if it begins
with a byte that does.
-/

namespace EventKernel

/-- Whether a byte can only stand behind the first byte of a character. -/
def isContinuation (b : UInt8) : Bool := 0x80 ≤ b.toNat && b.toNat ≤ 0xBF

lemma isContinuation_eq_true_iff {b : UInt8} :
    isContinuation b = true ↔ 0x80 ≤ b.toNat ∧ b.toNat ≤ 0xBF := by
  simp [isContinuation]

/-- Whether a byte sequence begins with a byte that continues a character. -/
def beginsInside : List UInt8 → Bool
  | [] => false
  | b :: _ => isContinuation b

/-- The number of bytes that do not continue a character. -/
def starts (bs : List UInt8) : Nat := bs.countP fun b => !isContinuation b

lemma starts_cons_add (b : UInt8) (bs : List UInt8) :
    starts (b :: bs) + (isContinuation b).toNat = starts bs + 1 := by
  rw [starts, List.countP_cons]
  cases isContinuation b <;> rfl

lemma starts_append (bs bs' : List UInt8) : starts (bs ++ bs') = starts bs + starts bs' :=
  List.countP_append

lemma starts_cons_of_isContinuation {b : UInt8} (hb : isContinuation b = true) (bs : List UInt8) :
    starts (b :: bs) = starts bs := by
  have hcount := starts_cons_add b bs
  rw [hb, Bool.toNat_true] at hcount
  omega

/-! ### One item -/

/-- A leading byte does not continue a character, and the bytes it asks for do. -/
lemma lead?_bounds {b : Nat} {l : Lead} (h : lead? b = some l) :
    0xBF < b ∧ 0x80 ≤ l.low ∧ l.high ≤ 0xBF := by
  unfold lead? at h
  split_ifs at h
  all_goals
    obtain rfl := Option.some.inj h
    dsimp only
    omega

section Behind

variable {rest : List UInt8} (hrest : beginsInside rest = false)

include hrest

/-- What does not continue a character is not read as a part of one. -/
lemma continued_append (n acc : Nat) (bs : List UInt8) :
    continued n acc (bs ++ rest) = ((continued n acc bs).1, (continued n acc bs).2 ++ rest) := by
  induction n generalizing acc bs with
  | zero => rfl
  | succ n ih =>
    cases bs with
    | nil =>
      cases rest with
      | nil => rfl
      | cons b rest =>
        have hb : ¬(0x80 ≤ b.toNat ∧ b.toNat ≤ 0xBF) := fun hb =>
          Bool.false_ne_true (hrest.symm.trans (isContinuation_eq_true_iff.mpr hb))
        exact if_neg hb
    | cons b bs =>
      rw [List.cons_append, continued, continued]
      split
      · exact ih ..
      · rfl

lemma continuedFrom_append {l : Lead} (hlow : 0x80 ≤ l.low) (hhigh : l.high ≤ 0xBF)
    (bs : List UInt8) :
    continuedFrom l (bs ++ rest) =
      ((continuedFrom l bs).1, (continuedFrom l bs).2 ++ rest) := by
  cases bs with
  | nil =>
    cases rest with
    | nil => rfl
    | cons b rest =>
      have hb : ¬(l.low ≤ b.toNat ∧ b.toNat ≤ l.high) := fun hb =>
        Bool.false_ne_true (hrest.symm.trans (isContinuation_eq_true_iff.mpr (by omega)))
      exact if_neg hb
  | cons b bs =>
    rw [List.cons_append, continuedFrom, continuedFrom]
    split
    · exact continued_append hrest ..
    · rfl

lemma decodeItem_append (b : UInt8) (bs : List UInt8) :
    decodeItem b (bs ++ rest) = ((decodeItem b bs).1, (decodeItem b bs).2 ++ rest) := by
  rw [decodeItem, decodeItem]
  split
  · rfl
  · cases hlead : lead? b.toNat with
    | none => rfl
    | some l =>
      obtain ⟨-, hlow, hhigh⟩ := lead?_bounds hlead
      exact continuedFrom_append hrest hlow hhigh bs

end Behind

lemma starts_continued (n acc : Nat) (bs : List UInt8) :
    starts (continued n acc bs).2 = starts bs := by
  induction n generalizing acc bs with
  | zero => rfl
  | succ n ih =>
    cases bs with
    | nil => rfl
    | cons b bs =>
      rw [continued]
      split
      · next hb => rw [ih, starts_cons_of_isContinuation (isContinuation_eq_true_iff.mpr hb)]
      · rfl

/-- Behind its first byte an item takes only bytes that continue a character. -/
lemma starts_decodeItem (b : UInt8) (bs : List UInt8) :
    starts (decodeItem b bs).2 = starts bs := by
  rw [decodeItem]
  split
  · rfl
  · cases hlead : lead? b.toNat with
    | none => rfl
    | some l =>
      obtain ⟨-, hlow, hhigh⟩ := lead?_bounds hlead
      cases bs with
      | nil => rfl
      | cons b' bs =>
        dsimp only
        rw [continuedFrom]
        split
        · next hb =>
          rw [starts_continued, starts_cons_of_isContinuation]
          exact isContinuation_eq_true_iff.mpr (by omega)
        · rfl

lemma isContinuation_of_decodeItem {b : UInt8} {bs : List UInt8} {c : Char}
    (h : (decodeItem b bs).1 = some c) : isContinuation b = false := by
  rw [← Bool.not_eq_true, isContinuation_eq_true_iff]
  rintro ⟨hlow, hhigh⟩
  rw [decodeItem, if_neg (by omega)] at h
  cases hlead : lead? b.toNat with
  | none =>
    rw [hlead] at h
    cases h
  | some l =>
    obtain ⟨hlt, -, -⟩ := lead?_bounds hlead
    omega

/-! ### All items -/

/-- Behind a piece decoding goes on anew, unless a character goes on there. -/
theorem decodeItems_append {rest : List UInt8} (hrest : beginsInside rest = false)
    (bs : List UInt8) : decodeItems (bs ++ rest) = decodeItems bs ++ decodeItems rest := by
  induction bs using decodeItems.induct with
  | case1 => rw [decodeItems, List.nil_append, List.nil_append]
  | case2 b bs ih =>
    rw [List.cons_append, decodeItems, decodeItem_append hrest, ih, decodeItems, List.cons_append]

lemma starts_add_le_length (bs : List UInt8) :
    starts bs + (beginsInside bs).toNat ≤ (decodeItems bs).length := by
  induction bs using decodeItems.induct with
  | case1 => exact Nat.zero_le _
  | case2 b bs ih =>
    rw [starts_decodeItem] at ih
    rw [beginsInside, starts_cons_add, decodeItems, List.length_cons]
    omega

lemma decodeStrict?_eq_some_iff {bs : List UInt8} {text : List Char} :
    decodeStrict? bs = some text ↔ decodeItems bs = text.map some := by
  have hmap : ∀ items : List Decoded, items.mapM id = some text ↔ items = text.map some := by
    intro items
    induction items generalizing text with
    | nil => cases text <;> simp
    | cons item items ih =>
      cases text <;> simp [Option.bind_eq_some_iff, ih]
  exact hmap _

lemma decodeLenient_of_decodeStrict? {bs : List UInt8} {text : List Char}
    (h : decodeStrict? bs = some text) : decodeLenient bs = text := by
  rw [decodeLenient, decodeStrict?_eq_some_iff.mp h, List.map_map]
  exact List.map_id text

/-- A well-formed byte sequence has as many characters as bytes that do not continue one. -/
lemma length_of_decodeStrict? {bs : List UInt8} {text : List Char}
    (h : decodeStrict? bs = some text) : text.length = starts bs := by
  rw [decodeStrict?_eq_some_iff] at h
  induction bs using decodeItems.induct generalizing text with
  | case1 =>
    rw [decodeItems] at h
    rw [List.map_eq_nil_iff.mp h.symm]
    rfl
  | case2 b bs ih =>
    rw [decodeItems] at h
    obtain ⟨c, text, rfl, hc, hrest⟩ := List.map_eq_cons_iff.mp h.symm
    have hcount := starts_cons_add b bs
    rw [isContinuation_of_decodeItem hc.symm, Bool.toNat_false, Nat.add_zero] at hcount
    rw [hcount, List.length_cons, ih hrest.symm, starts_decodeItem]

lemma beginsInside_of_decodeStrict? {bs : List UInt8} (h : (decodeStrict? bs).isSome = true) :
    beginsInside bs = false := by
  obtain ⟨text, htext⟩ := Option.isSome_iff_exists.mp h
  cases bs with
  | nil => rfl
  | cons b bs =>
    rw [decodeStrict?_eq_some_iff, decodeItems] at htext
    obtain ⟨c, -, -, hc, -⟩ := List.map_eq_cons_iff.mp htext.symm
    exact isContinuation_of_decodeItem hc.symm

/-- Bytes of ASCII are characters of their own. -/
lemma decodeStrict?_of_ascii {bs : List UInt8} (h : ∀ b ∈ bs, b.toNat < 0x80) :
    decodeStrict? bs = some (bs.map fun b => Char.ofNat b.toNat) := by
  rw [decodeStrict?_eq_some_iff]
  induction bs with
  | nil => rw [decodeItems, List.map_nil, List.map_nil]
  | cons b bs ih =>
    obtain ⟨hb, hbs⟩ := List.forall_mem_cons.mp h
    rw [decodeItems, decodeItem, if_pos hb, ih hbs, List.map_cons, List.map_cons]

/-! ### Pieces -/

section Pieces

variable {pieces : List (List UInt8)} {text : List Char}

lemma beginsInside_flatten (h : ∀ piece ∈ pieces, beginsInside piece = false) :
    beginsInside pieces.flatten = false := by
  induction pieces with
  | nil => rfl
  | cons piece pieces ih =>
    obtain ⟨hpiece, hpieces⟩ := List.forall_mem_cons.mp h
    cases piece with
    | nil => exact ih hpieces
    | cons b bs => exact hpiece

lemma decodeItems_flatten (h : ∀ piece ∈ pieces, beginsInside piece = false) :
    decodeItems pieces.flatten = pieces.flatMap decodeItems := by
  induction pieces with
  | nil => rw [List.flatten_nil, List.flatMap_nil, decodeItems]
  | cons piece pieces ih =>
    have hpieces := (List.forall_mem_cons.mp h).2
    rw [List.flatten_cons, List.flatMap_cons, decodeItems_append (beginsInside_flatten hpieces),
      ih hpieces]

/-- Each piece that begins inside a character gives a character too many. -/
lemma starts_flatten_add_le (pieces : List (List UInt8)) :
    starts pieces.flatten + pieces.countP beginsInside ≤ (pieces.flatMap decodeLenient).length := by
  induction pieces with
  | nil => exact Nat.zero_le _
  | cons piece pieces ih =>
    have hpiece := starts_add_le_length piece
    have hcount : (piece :: pieces).countP beginsInside =
        pieces.countP beginsInside + (beginsInside piece).toNat := by
      rw [List.countP_cons]
      cases beginsInside piece <;> rfl
    rw [hcount, List.flatten_cons, starts_append, List.flatMap_cons, List.length_append,
      decodeLenient, List.length_map]
    omega

/-- A well-formed text that is decoded piece by piece comes out right exactly if no piece begins in
the middle of a character. -/
lemma flatMap_decodeLenient_eq_iff_begins (h : decodeStrict? pieces.flatten = some text) :
    pieces.flatMap decodeLenient = text ↔ ∀ piece ∈ pieces, beginsInside piece = false := by
  constructor
  · intro heq piece hpiece
    have hle := starts_flatten_add_le pieces
    rw [heq, length_of_decodeStrict? h] at hle
    have hnone : pieces.countP beginsInside = 0 := by omega
    exact Bool.eq_false_iff.mpr (List.countP_eq_zero.mp hnone piece hpiece)
  · intro hbegins
    rw [← decodeLenient_of_decodeStrict? h, decodeLenient, decodeItems_flatten hbegins,
      List.map_flatMap]
    rfl

/-- A well-formed text that is decoded piece by piece comes out right exactly if each piece is
well-formed. -/
theorem flatMap_decodeLenient_eq_iff (h : decodeStrict? pieces.flatten = some text) :
    pieces.flatMap decodeLenient = text ↔
      ∀ piece ∈ pieces, (decodeStrict? piece).isSome = true := by
  rw [flatMap_decodeLenient_eq_iff_begins h]
  refine ⟨fun hbegins piece hpiece => ?_, fun hformed piece hpiece =>
    beginsInside_of_decodeStrict? (hformed piece hpiece)⟩
  rw [decodeStrict?_eq_some_iff, decodeItems_flatten hbegins] at h
  -- All items of the whole are characters, so those of the piece are.
  have hitems : ∀ item ∈ decodeItems piece, ∃ c, item = some c := by
    intro item hitem
    have hmem : item ∈ text.map some := h ▸ List.mem_flatMap.mpr ⟨piece, hpiece, hitem⟩
    obtain ⟨c, -, hc⟩ := List.mem_map.mp hmem
    exact ⟨c, hc.symm⟩
  refine Option.isSome_iff_exists.mpr ⟨decodeLenient piece, decodeStrict?_eq_some_iff.mpr ?_⟩
  rw [decodeLenient, List.map_map]
  refine (List.map_congr_left fun item hitem => ?_).symm.trans (List.map_id _) |>.symm
  obtain ⟨c, rfl⟩ := hitems item hitem
  rfl

end Pieces

end EventKernel
