import Mathlib.Data.List.Forall2
import Mathlib.Data.List.TakeWhile
import Mathlib.Tactic.Lemma
import EventKernel.Json.Basic

/-!
# The tokens of a written value

A value is written as a text that is cut into the tokens of the value again, with blanks between
them or without. What stands behind a number or a word must not continue it; what a value is
followed by in a longer text begins with a blank or a mark.
-/

namespace EventKernel.Json

variable {c : Char} {cs ds rest : List Char} {t : Token} {ts : List Token}

/-! ### Between tokens -/

lemma lex_cons (mode : Mode) (c : Char) (cs : List Char) :
    lex mode (c :: cs) =
      (lexStep mode c).bind fun (ts, mode) => (lex mode cs).map (ts ++ ·) := by
  rw [lex]
  cases lexStep mode c <;> rfl

lemma lex_of_step {m n : Mode} (h : lexStep m c = some ([], n)) (cs : List Char) :
    lex m (c :: cs) = lex n cs := by
  rw [lex_cons, h]
  exact Option.map_id'

lemma lex_punctuation (hspace : isSpace c = false) (ht : punctuation? c = some t)
    (rest : List Char) : lex .plain (c :: rest) = (lex .plain rest).map (t :: ·) := by
  rw [lex_cons, lexStep, plainStep, hspace, ht]
  rfl

lemma lex_blanks (h : ∀ c ∈ cs, isSpace c = true) (rest : List Char) :
    lex .plain (cs ++ rest) = lex .plain rest := by
  induction cs with
  | nil => rfl
  | cons c cs ih =>
    have hstep : lexStep .plain c = some ([], .plain) := by
      rw [lexStep, plainStep, if_pos (h c List.mem_cons_self)]
    rw [List.cons_append, lex_of_step hstep]
    exact ih fun c hc => h c (List.mem_cons_of_mem _ hc)

/-! ### Tokens of several characters -/

/-- A token that ended is followed by those of the rest. -/
lemma lex_of_after {mode : Mode} (hend : lexEnd mode = some [t])
    (hstep : ∀ c ∈ rest.head?, lexStep mode c = after (some t) c) :
    lex mode rest = (lex .plain rest).map (t :: ·) := by
  cases rest with
  | nil => exact hend
  | cons c rest =>
    rw [lex_cons, lex_cons, hstep c rfl]
    show ((plainStep c).bind fun (ts, mode) => some (t :: ts, mode)).bind _ =
      ((plainStep c).bind _).map _
    cases plainStep c with
    | none => rfl
    | some step =>
      simp only [Option.bind_some, Option.map_map]
      rfl

/-- A mode that collects the characters of a token, from the first one on which leads to it. -/
structure Collects (mode : List Char → Mode) (belongs : Char → Bool)
    (token? : List Char → Option Token) : Prop where
  go : ∀ ds c, belongs c = true → lexStep (mode ds) c = some ([], mode (c :: ds))
  stop : ∀ ds c, belongs c = false → lexStep (mode ds) c = after (token? ds.reverse) c
  finish : ∀ ds, lexEnd (mode ds) = (token? ds.reverse).map ([·])

lemma collects_word : Collects .word Char.isAlpha wordToken? where
  go ds c hc := by rw [lexStep, if_pos hc]
  stop ds c hc := by rw [lexStep, hc, if_neg Bool.false_ne_true]
  finish _ := rfl

lemma collects_number : Collects .number isNumeric numberToken? where
  go ds c hc := by rw [lexStep, if_pos hc]
  stop ds c hc := by rw [lexStep, hc, if_neg Bool.false_ne_true]
  finish _ := rfl

namespace Collects

variable {mode : List Char → Mode} {belongs : Char → Bool} {token? : List Char → Option Token}

lemma collect (h : Collects mode belongs token?) (hcs : ∀ c ∈ cs, belongs c = true)
    (ds rest : List Char) : lex (mode ds) (cs ++ rest) = lex (mode (cs.reverse ++ ds)) rest := by
  induction cs generalizing ds with
  | nil => rfl
  | cons c cs ih =>
    rw [List.cons_append, lex_of_step (h.go ds c (hcs c List.mem_cons_self)), List.reverse_cons,
      List.append_assoc]
    exact ih (fun c hc => hcs c (List.mem_cons_of_mem _ hc)) (c :: ds)

lemma lex_token (h : Collects mode belongs token?)
    (hstart : lexStep .plain c = some ([], mode [c])) (hcs : ∀ c ∈ cs, belongs c = true)
    (ht : token? (c :: cs) = some t) (hrest : ∀ c ∈ rest.head?, belongs c = false) :
    lex .plain (c :: cs ++ rest) = (lex .plain rest).map (t :: ·) := by
  have ht' : token? (cs.reverse ++ [c]).reverse = some t := by simpa using ht
  rw [List.cons_append, lex_of_step hstart, h.collect hcs]
  refine lex_of_after ?_ fun c hc => ?_
  · rw [h.finish, ht', Option.map_some]
  · rw [h.stop _ _ (hrest c hc), ht']

end Collects

/-- No number and no word goes on in such a text. -/
def Parted (rest : List Char) : Prop :=
  ∀ c ∈ rest.head?, isNumeric c = false ∧ c.isAlpha = false

/-! ### Numbers -/

lemma lexStep_of_isDigit (hc : c.isDigit = true) :
    lexStep .plain c = some ([], .number [c]) := by
  have hne : ∀ d : Char, d.isDigit = false → c ≠ d := by
    rintro d hd rfl
    cases hc.symm.trans hd
  have hspace : isSpace c = false := by
    simp [isSpace, hne]
  have hmark : punctuation? c = none := by
    rw [punctuation?] <;> exact hne _ (by decide)
  simp [lexStep, plainStep, hspace, hmark, hne '"' (by decide), hc]

lemma isNumeric_of_isDigit (hc : c.isDigit = true) : isNumeric c = true := by
  rw [isNumeric, hc]
  rfl

/-- No zero stands in front of the digits of a number other than zero. -/
lemma head?_toDigits {n : Nat} (hn : n ≠ 0) : (Nat.toDigits 10 n).head? ≠ some '0' := by
  induction n using Nat.strongRecOn with
  | ind n ih =>
    by_cases hlt : n < 10
    · rw [Nat.toDigits_of_lt_base hlt]
      have hdigit : ∀ n : Nat, n < 10 → n ≠ 0 → n.digitChar ≠ '0' := by decide
      simpa using hdigit n hlt hn
    · have hne : Nat.toDigits 10 (n / 10) ≠ [] := Nat.toDigits_ne_nil
      rw [Nat.toDigits_of_base_le (by decide) (by omega), List.head?_append_of_ne_nil _ hne]
      exact ih (n / 10) (by omega) (by omega)

lemma valueOf_toDigits (n : Nat) : valueOf (Nat.toDigits 10 n) = n := by
  have hfold := Nat.ofDigitChars_ten_toDigits (n := n)
  rw [Nat.ofDigitChars_eq_foldl] at hfold
  simp only [Nat.mul_comm 10] at hfold
  exact hfold

lemma dropInteger?_toDigits (n : Nat) : dropInteger? (Nat.toDigits 10 n) = some [] := by
  have hdigits : ∀ c ∈ Nat.toDigits 10 n, c.isDigit = true :=
    fun c hc => Nat.isDigit_of_mem_toDigits (by decide) (by decide) hc
  by_cases hn : n = 0
  · rw [hn]
    rfl
  · have hhead := head?_toDigits hn
    cases hcs : Nat.toDigits 10 n with
    | nil => exact absurd hcs Nat.toDigits_ne_nil
    | cons c cs =>
      rw [hcs] at hdigits hhead
      have hzero : c ≠ '0' := fun hc => hhead (congrArg some hc)
      have hall : cs.dropWhile Char.isDigit = [] :=
        List.dropWhile_eq_nil_iff.mpr fun c hc => hdigits c (List.mem_cons_of_mem _ hc)
      rw [dropInteger?.eq_2 _ (fun _ h => hzero (List.cons.inj h).1), dropDigits?,
        if_pos (hdigits c List.mem_cons_self), hall]

lemma unsignedToken?_toDigits (n : Nat) :
    unsignedToken? (Nat.toDigits 10 n) = some (.integer n) := by
  rw [unsignedToken?, dropInteger?_toDigits]
  show some (Token.integer (valueOf (Nat.toDigits 10 n))) = _
  rw [valueOf_toDigits]

/-- The digits of a number, behind a sign if it is negative. -/
lemma toList_toString_int (n : Int) :
    (toString n).toList =
      if 0 ≤ n then Nat.toDigits 10 n.natAbs else '-' :: Nat.toDigits 10 n.natAbs := by
  rw [Int.toString_eq_repr, Int.repr_eq_if]
  split
  · rw [Nat.repr_eq_ofList_toDigits, String.toList_ofList, show n.toNat = n.natAbs by omega]
  · rw [Nat.repr_eq_ofList_toDigits, show (-n).toNat = n.natAbs by omega, String.toList_append,
      String.toList_ofList, String.toList_ofList]
    rfl

lemma lex_integer (n : Int) (hrest : Parted rest) :
    lex .plain ((toString n).toList ++ rest) = (lex .plain rest).map (.integer n :: ·) := by
  have hdigits : ∀ c ∈ Nat.toDigits 10 n.natAbs, c.isDigit = true :=
    fun c hc => Nat.isDigit_of_mem_toDigits (by decide) (by decide) hc
  have htoken := unsignedToken?_toDigits n.natAbs
  rw [toList_toString_int]
  generalize Nat.toDigits 10 n.natAbs = cs at hdigits htoken
  split
  · next hn =>
    rw [Int.natAbs_of_nonneg hn] at htoken
    cases cs with
    | nil => cases htoken
    | cons c cs =>
      have hc : c.isDigit = true := hdigits c List.mem_cons_self
      refine collects_number.lex_token (lexStep_of_isDigit hc) (fun d hd => ?_) ?_
        fun c hc => (hrest c hc).1
      · exact isNumeric_of_isDigit (hdigits d (List.mem_cons_of_mem _ hd))
      · rw [numberToken?.eq_2 _ fun _ h => ?_]
        · exact htoken
        · rw [(List.cons.inj h).1] at hc
          cases hc
  · next hn =>
    refine collects_number.lex_token rfl (fun d hd => isNumeric_of_isDigit (hdigits d hd)) ?_
      fun c hc => (hrest c hc).1
    have hne : (n.natAbs : Int) ≠ 0 := by omega
    rw [numberToken?, htoken, Option.map_some]
    simp only [if_neg hne]
    rw [show -(n.natAbs : Int) = n by omega]

/-! ### Strings -/

/-- A piece of a string that stands for a character. -/
inductive Piece.StandsFor : Piece → Char → Prop
  | char (c : Char) : StandsFor (.char c) c
  | unit {c : Char} (hc : c.toNat < 0x20) : StandsFor (.unit c.toNat) c

lemma joinPieces_of_standsFor {ps : List Piece} (h : List.Forall₂ Piece.StandsFor ps cs) :
    joinPieces ps = some cs := by
  induction h with
  | nil => rfl
  | cons hp _ ih =>
    cases hp with
    | char => rw [joinPieces, ih, Option.map_some]
    | unit hc =>
      unfold joinPieces
      rw [if_pos (Or.inl (by omega)), ih, Option.map_some, Char.ofNat_toNat]

lemma lex_escape {d : Char} (hd : d ≠ 'u') (hc : escaped? d = some c) (ps : List Piece)
    (rest : List Char) :
    lex (.string ps) ('\\' :: d :: rest) = lex (.string (.char c :: ps)) rest := by
  have hescape : lexStep (.escape ps) d = some ([], .string (.char c :: ps)) := by
    rw [lexStep, if_neg hd, hc, Option.map_some]
  rw [lex_of_step (n := .escape ps) rfl, lex_of_step hescape]

lemma hexDigit?_hexChar : ∀ n < 16, hexDigit? (hexChar n) = some n := by
  decide

/-- An escape of four digits stands for a unit. -/
lemma lex_unit {n : Nat} (hn : n < 0x20) (ps : List Piece) (rest : List Char) :
    lex (.string ps) ('\\' :: 'u' :: '0' :: '0' :: hexChar (n / 16) :: hexChar (n % 16) :: rest) =
      lex (.string (.unit n :: ps)) rest := by
  have hhigh : lexStep (.hex ps 2 0) (hexChar (n / 16)) = some ([], .hex ps 3 (n / 16)) := by
    rw [lexStep, hexDigit?_hexChar _ (by omega)]
    simp
  have hlow : lexStep (.hex ps 3 (n / 16)) (hexChar (n % 16)) =
      some ([], .string (.unit n :: ps)) := by
    rw [lexStep, hexDigit?_hexChar _ (by omega)]
    simp [Nat.div_add_mod']
  rw [lex_of_step (n := .escape ps) rfl, lex_of_step (n := .hex ps 0 0) rfl,
    lex_of_step (n := .hex ps 1 0) rfl, lex_of_step (n := .hex ps 2 0) rfl,
    lex_of_step hhigh, lex_of_step hlow]

lemma lex_quoteChar (c : Char) :
    ∃ p, Piece.StandsFor p c ∧
      ∀ ps rest, lex (.string ps) (quoteChar c ++ rest) = lex (.string (p :: ps)) rest := by
  rw [quoteChar]
  split_ifs with hquote hbackslash hbackspace hfeed hline hreturn htab hcontrol
  · exact ⟨_, .char c, lex_escape (by decide) (by rw [hquote]; rfl)⟩
  · exact ⟨_, .char c, lex_escape (by decide) (by rw [hbackslash]; rfl)⟩
  · exact ⟨_, .char c, lex_escape (by decide) (by rw [hbackspace]; rfl)⟩
  · exact ⟨_, .char c, lex_escape (by decide) (by rw [hfeed]; rfl)⟩
  · exact ⟨_, .char c, lex_escape (by decide) (by rw [hline]; rfl)⟩
  · exact ⟨_, .char c, lex_escape (by decide) (by rw [hreturn]; rfl)⟩
  · exact ⟨_, .char c, lex_escape (by decide) (by rw [htab]; rfl)⟩
  · exact ⟨_, .unit hcontrol, lex_unit hcontrol⟩
  · refine ⟨_, .char c, fun ps rest => lex_of_step ?_ rest⟩
    rw [lexStep, if_neg hquote, if_neg hbackslash, if_neg hcontrol]

lemma lex_quoteChars (cs : List Char) :
    ∃ pieces, List.Forall₂ Piece.StandsFor pieces cs ∧
      ∀ ps rest, lex (.string ps) (cs.flatMap quoteChar ++ rest) =
        lex (.string (pieces.reverse ++ ps)) rest := by
  induction cs with
  | nil => exact ⟨[], .nil, fun _ _ => rfl⟩
  | cons c cs ih =>
    obtain ⟨p, hp, hlex⟩ := lex_quoteChar c
    obtain ⟨pieces, hpieces, hlex'⟩ := ih
    refine ⟨p :: pieces, .cons hp hpieces, fun ps rest => ?_⟩
    rw [List.flatMap_cons, List.append_assoc, hlex, hlex', List.reverse_cons, List.append_assoc]
    rfl

lemma lex_quote (s : String) (rest : List Char) :
    lex .plain (quote s ++ rest) = (lex .plain rest).map (.string (some s) :: ·) := by
  obtain ⟨pieces, hpieces, hlex⟩ := lex_quoteChars s.toList
  have hjoin : (joinPieces (pieces.reverse ++ []).reverse).map String.ofList = some s := by
    rw [List.append_nil, List.reverse_reverse, joinPieces_of_standsFor hpieces, Option.map_some,
      String.ofList_toList]
  rw [quote, List.cons_append, List.append_assoc, lex_of_step (n := .string []) rfl, hlex,
    List.cons_append, lex_cons, lexStep, if_pos rfl, hjoin]
  rfl

end EventKernel.Json
