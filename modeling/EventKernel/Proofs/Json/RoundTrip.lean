import EventKernel.Proofs.Json.Lexing

/-!
# Reading back what was written

The text of a value has the tokens of the value, whether it is indented or not, and from its tokens
the machine that reads builds the value again. So each value can be read back from its texts, if all
its strings have a value.
-/

namespace EventKernel.Json

variable {rest : List Char} {v : Json} {vs : List Json} {ms : List (Option String × Json)}

/-! ### Tokens -/

mutual

/-- The tokens of a value. -/
def tokens : Json → List Token
  | .null => [.null]
  | .bool b => [.bool b]
  | .integer n => [.integer n]
  | .real => [.real ['0', '.', '0']]
  | .string s => [.string (some (s.getD ""))]
  | .array [] => [.leftBracket, .rightBracket]
  | .array (v :: vs) => .leftBracket :: (tokens v ++ (itemTokens vs ++ [.rightBracket]))
  | .object [] => [.leftBrace, .rightBrace]
  | .object ((k, v) :: ms) =>
    .leftBrace :: .string (some (k.getD "")) :: .colon ::
      (tokens v ++ (memberTokens ms ++ [.rightBrace]))

/-- The tokens of the items behind the first one. -/
def itemTokens : List Json → List Token
  | [] => []
  | v :: vs => .comma :: (tokens v ++ itemTokens vs)

/-- The tokens of the members behind the first one. -/
def memberTokens : List (Option String × Json) → List Token
  | [] => []
  | (k, v) :: ms =>
    .comma :: .string (some (k.getD "")) :: .colon :: (tokens v ++ memberTokens ms)

end

/-! ### The shape of a text -/

/-- What stands in front of an item or a member: the line break, if there is one. -/
def lineBreak (pretty : Option Nat) : List Char := pretty.elim [] newline

/-- What stands behind a colon. -/
def colonBlank (pretty : Option Nat) : List Char := pretty.elim [] fun _ => [' ']

/-- One level deeper. -/
def deeper (pretty : Option Nat) : Option Nat := pretty.map (· + 1)

lemma write_array (pretty : Option Nat) (v : Json) (vs : List Json) :
    write pretty (.array (v :: vs)) =
      '[' :: (lineBreak (deeper pretty) ++ (write (deeper pretty) v ++
        (writeItems (deeper pretty) vs ++ (lineBreak pretty ++ [']'])))) := by
  cases pretty <;> simp [write, lineBreak, deeper]

lemma write_object (pretty : Option Nat) (k : Option String) (v : Json)
    (ms : List (Option String × Json)) :
    write pretty (.object ((k, v) :: ms)) =
      '\x7b' :: (lineBreak (deeper pretty) ++ (quote (k.getD "") ++ ':' ::
        (colonBlank pretty ++ (write (deeper pretty) v ++
          (writeMembers (deeper pretty) ms ++ (lineBreak pretty ++ ['\x7d'])))))) := by
  cases pretty <;> simp [write, lineBreak, colonBlank, deeper]

lemma writeItems_cons (pretty : Option Nat) (v : Json) (vs : List Json) :
    writeItems pretty (v :: vs) =
      ',' :: (lineBreak pretty ++ (write pretty v ++ writeItems pretty vs)) := by
  cases pretty <;> simp [writeItems, lineBreak]

lemma writeMembers_cons (pretty : Option Nat) (k : Option String) (v : Json)
    (ms : List (Option String × Json)) :
    writeMembers pretty ((k, v) :: ms) =
      ',' :: (lineBreak pretty ++ (quote (k.getD "") ++ ':' ::
        (colonBlank pretty ++ (write pretty v ++ writeMembers pretty ms)))) := by
  cases pretty <;> simp [writeMembers, lineBreak, colonBlank]

lemma lex_lineBreak (pretty : Option Nat) (rest : List Char) :
    lex .plain (lineBreak pretty ++ rest) = lex .plain rest := by
  refine lex_blanks (fun c hc => ?_) rest
  cases pretty with
  | none => cases hc
  | some d =>
    rcases List.mem_cons.mp hc with rfl | hc
    · rfl
    · rw [List.eq_of_mem_replicate hc]
      rfl

lemma lex_colonBlank (pretty : Option Nat) (rest : List Char) :
    lex .plain (colonBlank pretty ++ rest) = lex .plain rest := by
  cases pretty with
  | none => rfl
  | some d => exact lex_of_step rfl rest

lemma parted_cons {c : Char} (h : isNumeric c = false ∧ c.isAlpha = false) (rest : List Char) :
    Parted (c :: rest) := by
  intro d hd
  cases hd
  exact h

/-- Behind the last item comes a line break or the end of the array. -/
lemma parted_lineBreak {c : Char} (h : isNumeric c = false ∧ c.isAlpha = false)
    (pretty : Option Nat) (rest : List Char) : Parted (lineBreak pretty ++ c :: rest) := by
  cases pretty with
  | none => exact parted_cons h rest
  | some d => exact parted_cons (by decide) _

lemma Parted.writeItems (h : Parted rest) (pretty : Option Nat) (vs : List Json) :
    Parted (Json.writeItems pretty vs ++ rest) := by
  cases vs with
  | nil => exact h
  | cons v vs =>
    rw [writeItems_cons]
    exact parted_cons (by decide) _

lemma Parted.writeMembers (h : Parted rest) (pretty : Option Nat)
    (ms : List (Option String × Json)) : Parted (Json.writeMembers pretty ms ++ rest) := by
  cases ms with
  | nil => exact h
  | cons m ms =>
    rw [writeMembers_cons]
    exact parted_cons (by decide) _

/-! ### From the text to the tokens -/

mutual

/-- A text has the tokens of its value. -/
lemma lex_write (pretty : Option Nat) (v : Json) {rest : List Char} (h : Parted rest) :
    lex .plain (write pretty v ++ rest) = (lex .plain rest).map (v.tokens ++ ·) := by
  match v with
  | .null | .bool true | .bool false =>
    exact collects_word.lex_token rfl (List.all_eq_true.mp rfl) rfl fun c hc => (h c hc).2
  | .integer n => exact lex_integer n h
  | .real =>
    exact collects_number.lex_token rfl (List.all_eq_true.mp rfl) rfl fun c hc => (h c hc).1
  | .string s => exact lex_quote (s.getD "") rest
  | .array [] =>
    show lex .plain ('[' :: ']' :: rest) = _
    rw [lex_punctuation (t := .leftBracket) rfl rfl, lex_punctuation (t := .rightBracket) rfl rfl]
    simp [tokens, Function.comp_def]
  | .array (v :: vs) =>
    have hend : Parted (lineBreak pretty ++ ']' :: rest) := parted_lineBreak (by decide) _ _
    rw [write_array]
    simp only [List.cons_append, List.append_assoc, List.nil_append]
    rw [lex_punctuation (t := .leftBracket) rfl rfl, lex_lineBreak,
      lex_write (deeper pretty) v (hend.writeItems (deeper pretty) vs),
      lex_writeItems (deeper pretty) vs hend, lex_lineBreak,
      lex_punctuation (t := .rightBracket) rfl rfl]
    simp [tokens, Function.comp_def]
  | .object [] =>
    show lex .plain ('\x7b' :: '\x7d' :: rest) = _
    rw [lex_punctuation (t := .leftBrace) rfl rfl, lex_punctuation (t := .rightBrace) rfl rfl]
    simp [tokens, Function.comp_def]
  | .object ((k, v) :: ms) =>
    have hend : Parted (lineBreak pretty ++ '\x7d' :: rest) := parted_lineBreak (by decide) _ _
    rw [write_object]
    simp only [List.cons_append, List.append_assoc, List.nil_append]
    rw [lex_punctuation (t := .leftBrace) rfl rfl, lex_lineBreak, lex_quote,
      lex_punctuation (t := .colon) rfl rfl, lex_colonBlank,
      lex_write (deeper pretty) v (hend.writeMembers (deeper pretty) ms),
      lex_writeMembers (deeper pretty) ms hend, lex_lineBreak,
      lex_punctuation (t := .rightBrace) rfl rfl]
    simp [tokens, Function.comp_def]

/-- The text of further items has their tokens. -/
lemma lex_writeItems (pretty : Option Nat) (vs : List Json) {rest : List Char} (h : Parted rest) :
    lex .plain (writeItems pretty vs ++ rest) = (lex .plain rest).map (itemTokens vs ++ ·) := by
  match vs with
  | [] => exact Option.map_id'.symm
  | v :: vs =>
    rw [writeItems_cons]
    simp only [List.cons_append, List.append_assoc]
    rw [lex_punctuation (t := .comma) rfl rfl, lex_lineBreak,
      lex_write pretty v (h.writeItems pretty vs), lex_writeItems pretty vs h]
    simp [itemTokens, Function.comp_def]

/-- The text of further members has their tokens. -/
lemma lex_writeMembers (pretty : Option Nat) (ms : List (Option String × Json)) {rest : List Char}
    (h : Parted rest) :
    lex .plain (writeMembers pretty ms ++ rest) =
      (lex .plain rest).map (memberTokens ms ++ ·) := by
  match ms with
  | [] => exact Option.map_id'.symm
  | (k, v) :: ms =>
    rw [writeMembers_cons]
    simp only [List.cons_append, List.append_assoc]
    rw [lex_punctuation (t := .comma) rfl rfl, lex_lineBreak, lex_quote,
      lex_punctuation (t := .colon) rfl rfl, lex_colonBlank,
      lex_write pretty v (h.writeMembers pretty ms), lex_writeMembers pretty ms h]
    simp [memberTokens, Function.comp_def]

end

/-! ### From the tokens to the value -/

mutual

/-- All strings in the value have a value themselves. -/
def Spelled : Json → Prop
  | .string s => s.isSome = true
  | .array vs => SpelledItems vs
  | .object ms => SpelledMembers ms
  | _ => True

/-- All strings in the items have a value. -/
def SpelledItems : List Json → Prop
  | [] => True
  | v :: vs => Spelled v ∧ SpelledItems vs

/-- All strings in the members have a value, keys included. -/
def SpelledMembers : List (Option String × Json) → Prop
  | [] => True
  | (k, v) :: ms => k.isSome = true ∧ Spelled v ∧ SpelledMembers ms

end

lemma readTokens_cons {q r : Reader} {t : Token} (h : readStep q t = some r) (ts : List Token)
    (hgoes : ∀ v, q.expect ≠ .nothing v) : readTokens q (t :: ts) = readTokens r ts := by
  obtain ⟨stack, expect⟩ := q
  cases expect with
  | nothing v => exact absurd rfl (hgoes v)
  | _ => rw [readTokens, h]

/-- In front of the first item, an array that could end does not. -/
lemma readTokens_valueOrEnd (stack : List Open) (v : Json) (ts : List Token) :
    readTokens ⟨.array [] :: stack, .valueOrEnd⟩ (v.tokens ++ ts) =
      readTokens ⟨.array [] :: stack, .value⟩ (v.tokens ++ ts) := by
  match v with
  | .null | .bool _ | .integer _ | .real | .string _ | .array [] | .array (_ :: _) | .object []
  | .object ((_, _) :: _) => rfl

mutual

/-- A value is built from its tokens and put where it belongs. -/
lemma readTokens_tokens (v : Json) (h : v.Spelled) (stack : List Open) (ts : List Token) :
    readTokens ⟨stack, .value⟩ (v.tokens ++ ts) = readTokens (deliver v stack) ts := by
  match v, h with
  | .null, _ | .bool _, _ | .integer _, _ | .real, _ | .array [], _ | .object [], _ => rfl
  | .string (some s), _ => rfl
  | .array (v :: vs), ⟨hv, hvs⟩ =>
    simp only [tokens, List.cons_append, List.append_assoc, List.nil_append]
    rw [readTokens_cons (r := ⟨.array [] :: stack, .valueOrEnd⟩) rfl _ (by simp),
      readTokens_valueOrEnd, readTokens_tokens v hv]
    exact readTokens_itemTokens vs hvs [v] stack ts
  | .object ((some k, v) :: ms), ⟨_, hv, hms⟩ =>
    simp only [tokens, List.cons_append, List.append_assoc, List.nil_append]
    rw [readTokens_cons (r := ⟨stack, .keyOrEnd⟩) rfl _ (by simp),
      readTokens_cons (r := ⟨stack, .colon [] (some k)⟩) rfl _ (by simp),
      readTokens_cons (r := ⟨.object [] (some k) :: stack, .value⟩) rfl _ (by simp),
      readTokens_tokens v hv]
    exact readTokens_memberTokens ms hms [(some k, v)] (some k) stack ts

/-- Further items are added to those of an array, until its end. -/
lemma readTokens_itemTokens (vs : List Json) (h : SpelledItems vs) (items : List Json)
    (stack : List Open) (ts : List Token) :
    readTokens ⟨.array items :: stack, .commaOrEnd⟩ (itemTokens vs ++ .rightBracket :: ts) =
      readTokens (deliver (.array (items.reverse ++ vs)) stack) ts := by
  match vs, h with
  | [], _ =>
    rw [List.append_nil]
    rfl
  | v :: vs, ⟨hv, hvs⟩ =>
    simp only [itemTokens, List.cons_append, List.append_assoc]
    rw [readTokens_cons (r := ⟨.array items :: stack, .value⟩) rfl _ (by simp),
      readTokens_tokens v hv]
    refine (readTokens_itemTokens vs hvs (v :: items) stack ts).trans ?_
    rw [List.reverse_cons, List.append_assoc]
    rfl

/-- Further members are added to those of an object, until its end. -/
lemma readTokens_memberTokens (ms : List (Option String × Json)) (h : SpelledMembers ms)
    (members : List (Option String × Json)) (key : Option String) (stack : List Open)
    (ts : List Token) :
    readTokens ⟨.object members key :: stack, .commaOrEnd⟩ (memberTokens ms ++ .rightBrace :: ts) =
      readTokens (deliver (.object (members.reverse ++ ms)) stack) ts := by
  match ms, h with
  | [], _ =>
    rw [List.append_nil]
    rfl
  | (some k, v) :: ms, ⟨_, hv, hms⟩ =>
    simp only [memberTokens, List.cons_append, List.append_assoc]
    rw [readTokens_cons (r := ⟨stack, .key members⟩) rfl _ (by simp),
      readTokens_cons (r := ⟨stack, .colon members (some k)⟩) rfl _ (by simp),
      readTokens_cons (r := ⟨.object members (some k) :: stack, .value⟩) rfl _ (by simp),
      readTokens_tokens v hv]
    refine (readTokens_memberTokens ms hms ((some k, v) :: members) (some k) stack ts).trans ?_
    rw [List.reverse_cons, List.append_assoc]
    rfl

end

/-- A value is read back from its text, whatever blanks stand behind it. -/
lemma read?_write (h : v.Spelled) (pretty : Option Nat) {blanks : List Char}
    (hblanks : ∀ c ∈ blanks, isSpace c = true) :
    read? (String.ofList (write pretty v ++ blanks)) = some v := by
  have hparted : Parted blanks := by
    intro c hc
    have hspace := hblanks c (List.mem_of_mem_head? hc)
    simp only [isSpace, Bool.or_eq_true, decide_eq_true_eq] at hspace
    rcases hspace with ((rfl | rfl) | rfl) | rfl <;> decide
  have hlex : lex .plain blanks = some [] := by
    have := lex_blanks hblanks []
    rwa [List.append_nil] at this
  rw [read?, String.toList_ofList, lex_write pretty v hparted, hlex, Option.map_some,
    Option.bind_some, readTokens_tokens v h]
  rfl

end EventKernel.Json
