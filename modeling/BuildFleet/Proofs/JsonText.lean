import BuildFleet.Json.Parser
import BuildFleet.Json.Printer

/-!
# JSON texts are read back

What is written for a value is cut into the tokens of the value again, in either layout, and the
tokens are read as the value. The writer puts the text of a value in front of the characters that
follow it, and so what it writes is described as a function on what follows: it spells some tokens
if the machine that cuts has just these tokens more when it has come past. A word ends where
something follows that cannot go on with it, so a word is spelled in front of such characters only.

## Two layouts, one argument

The layouts differ in what stands between the tokens and in nothing else. Spellings are put together
by `Spells.before`, and blanks and ends of lines are spellings of no token, so both writers go
through the same list of small lemmas. What stands between the items of a list is handled once, for
any way of writing an item that spells its tokens, and for members as for items.

## Reading with fuel

The reader is given fuel by the number of tokens, and how much of it is left at some place depends
on all that stands in front of it. The statement that goes through an induction on the value is
therefore about any amount that is not less than the tokens of the value, and about any tokens that
come afterwards. Between two items there is a comma, so there is always a token for the next unit.
-/

namespace BuildFleet.Json

/-! ## Spelling tokens

The machine that cuts holds the word that it is in the middle of. A spelling is told of the machine
between two tokens, and what a word needs in addition is that the character after it starts afresh.
-/

namespace Token

/-- The tokens that the machine has found when it has come to the end of the text. -/
def run (s : Scanner) (cs : List Char) : Option (List Token) :=
  (cs.foldlM step s).bind finish

theorem run_cons (s : Scanner) (c : Char) (cs : List Char) :
    run s (c :: cs) = (step s c).bind (run · cs) := by
  rw [run, List.foldlM_cons]
  exact Option.bind_assoc _ _ _

/-- Whether no word goes on with these characters. -/
def breaksWord : List Char → Bool
  | [] => true
  | c :: _ => !isWordChar c

theorem run_word {read : List Char} {found : List Token} {rest : List Char}
    (h : breaksWord rest) :
    run ⟨.word read, found⟩ rest = run ⟨.between, .word read.reverse :: found⟩ rest := by
  cases rest with
  | nil => rfl
  | cons c rest =>
    have hc : isWordChar c = false := by simpa [breaksWord] using h
    have hstep : step ⟨.word read, found⟩ c = start (.word read.reverse :: found) c := by
      rw [step, hc]
      rfl
    rw [run_cons, run_cons, hstep]
    rfl

theorem run_word_append {cs : List Char} (hw : ∀ c ∈ cs, isWordChar c = true)
    (read : List Char) (found : List Token) (rest : List Char) :
    run ⟨.word read, found⟩ (cs ++ rest) = run ⟨.word (cs.reverse ++ read), found⟩ rest := by
  induction cs generalizing read with
  | nil => rfl
  | cons c cs ih =>
    have hstep : step ⟨.word read, found⟩ c = some ⟨.word (c :: read), found⟩ := by
      rw [step, if_pos (hw c List.mem_cons_self)]
    rw [List.cons_append, run_cons, hstep, Option.bind_some,
      ih fun d hd ↦ hw d (List.mem_cons_of_mem _ hd), List.reverse_cons, List.append_assoc]
    rfl

/-- Whether characters in front of others bring these tokens. -/
def Spells (emit : List Char → List Char) (ts : List Token) : Prop :=
  ∀ found rest, breaksWord rest →
    run ⟨.between, found⟩ (emit rest) = run ⟨.between, ts.reverse ++ found⟩ rest

namespace Spells

variable {f g : List Char → List Char} {ts us : List Token}

theorem nothing : Spells id [] := fun _ _ _ ↦ rfl

/-- One spelling in front of another, if no word runs over from one to the other. -/
theorem before (hf : Spells f ts) (hg : Spells g us) (hb : ∀ rest, breaksWord (g rest)) :
    Spells (fun rest ↦ f (g rest)) (ts ++ us) := by
  intro found rest h
  rw [hf found (g rest) (hb rest), hg _ rest h, List.reverse_append, List.append_assoc]

theorem mark {c : Char} {t : Token} (hc : ∀ found, start found c = some ⟨.between, t :: found⟩)
    (hg : Spells g us) : Spells (fun rest ↦ c :: g rest) (t :: us) := by
  intro found rest h
  have hstep : step ⟨.between, found⟩ c = some ⟨.between, t :: found⟩ := hc found
  rw [run_cons, hstep, Option.bind_some, hg _ rest h, List.reverse_cons, List.append_assoc]
  rfl

theorem blank {c : Char} (hc : isSpace c = true) (hg : Spells g us) :
    Spells (fun rest ↦ c :: g rest) us := by
  intro found rest h
  have hstep : step ⟨.between, found⟩ c = some ⟨.between, found⟩ := by
    rw [step, start, if_pos hc]
  rw [run_cons, hstep, Option.bind_some, hg _ rest h]

theorem newLine (level : Nat) (hg : Spells g us) :
    Spells (fun rest ↦ Json.newLine level (g rest)) us := by
  refine blank rfl ?_
  induction 2 * level with
  | zero => exact hg
  | succ n ih => exact blank rfl ih

theorem start_word {c : Char} (hc : isWordChar c = true) (found : List Token) :
    start found c = some ⟨.word [c], found⟩ := by
  have hspace : isSpace c = false := by
    rw [← Bool.not_eq_true]
    intro h
    simp only [isSpace, Bool.or_eq_true, beq_iff_eq] at h
    rcases h with ((rfl | rfl) | rfl) | rfl <;> exact absurd hc (by decide)
  have hquote : (c == '"') = false := by
    rw [beq_eq_false_iff_ne]
    rintro rfl
    exact absurd hc (by decide)
  rw [start, hspace, hquote, hc]
  rfl

theorem word {w : List Char} (hne : w ≠ []) (hw : ∀ c ∈ w, isWordChar c = true) :
    Spells (w ++ ·) [.word w] := by
  intro found rest h
  obtain ⟨c, cs, rfl⟩ := List.exists_cons_of_ne_nil hne
  change run ⟨.between, found⟩ (c :: (cs ++ rest)) = _
  have hstep : step ⟨.between, found⟩ c = some ⟨.word [c], found⟩ :=
    start_word (hw c List.mem_cons_self) found
  rw [run_cons, hstep, Option.bind_some,
    run_word_append (fun d hd ↦ hw d (List.mem_cons_of_mem _ hd)), run_word h]
  simp

end Spells

/-! ## Quoted texts

Most characters stand for themselves. Those that would end the text or break the line have an escape
of one letter, and the control characters besides are written as a code of four digits, which is the
long way round: four digits are read one by one, and the code is then a character by itself. -/

/-- The piece that a character is written as: control characters without an escape of their own are
written by their code. -/
def pieceOf (c : Char) : Piece :=
  if c.toNat < 32 ∧ c ∉ ['\x08', '\t', '\n', '\x0c', '\r'] then .code c.toNat else .char c

theorem digitValue?_hexDigit (n : Nat) : digitValue? 16 (hexDigit n) = some (n % 16) := by
  have h : ∀ d < 16, digitValue? 16 (hexDigit d) = some d := by decide
  have hmod : hexDigit n = hexDigit (n % 16) := by
    rw [hexDigit, hexDigit, Nat.mod_mod]
  rw [hmod, h _ (Nat.mod_lt n (by decide))]

theorem run_digit {c : Char} {d : Nat} (hc : digitValue? 16 c = some d) (read : List Piece)
    (digits value : Nat) (found : List Token) (rest : List Char) (h : digits ≠ 3) :
    run ⟨.code read digits value, found⟩ (c :: rest) =
      run ⟨.code read (digits + 1) (16 * value + d), found⟩ rest := by
  have hstep : step ⟨.code read digits value, found⟩ c =
      some ⟨.code read (digits + 1) (16 * value + d), found⟩ := by
    rw [step, hc, Option.map_some, if_neg (by simpa using h)]
  rw [run_cons, hstep, Option.bind_some]

theorem run_lastDigit {c : Char} {d : Nat} (hc : digitValue? 16 c = some d) (read : List Piece)
    (value : Nat) (found : List Token) (rest : List Char) :
    run ⟨.code read 3 value, found⟩ (c :: rest) =
      run ⟨.text (.code (16 * value + d) :: read), found⟩ rest := by
  have hstep : step ⟨.code read 3 value, found⟩ c =
      some ⟨.text (.code (16 * value + d) :: read), found⟩ := by
    rw [step, hc]
    rfl
  rw [run_cons, hstep, Option.bind_some]

theorem run_code {n : Nat} (hn : n < 256) (read : List Piece) (found : List Token)
    (rest : List Char) :
    run ⟨.text read, found⟩
        ('\\' :: 'u' :: '0' :: '0' :: hexDigit (n / 16) :: hexDigit n :: rest) =
      run ⟨.text (.code n :: read), found⟩ rest := by
  have hopen : ∀ cs, run ⟨.text read, found⟩ ('\\' :: 'u' :: cs) = run ⟨.code read 0 0, found⟩ cs :=
    fun _ ↦ rfl
  rw [hopen, run_digit (d := 0) rfl _ _ _ _ _ (by decide),
    run_digit (d := 0) rfl _ _ _ _ _ (by decide),
    run_digit (digitValue?_hexDigit _) _ _ _ _ _ (by decide),
    run_lastDigit (digitValue?_hexDigit n)]
  have hvalue : 16 * (16 * (16 * (16 * 0 + 0) + 0) + n / 16 % 16) + n % 16 = n := by omega
  rw [hvalue]

theorem run_escapeChar (c : Char) (read : List Piece) (found : List Token) (rest : List Char) :
    run ⟨.text read, found⟩ (escapeChar c ++ rest) =
      run ⟨.text (pieceOf c :: read), found⟩ rest := by
  by_cases hc : c ∈ ['"', '\\', '\x08', '\t', '\n', '\x0c', '\r']
  · simp only [List.mem_cons, List.not_mem_nil, or_false] at hc
    rcases hc with rfl | rfl | rfl | rfl | rfl | rfl | rfl <;> rfl
  · simp only [List.mem_cons, List.not_mem_nil, or_false, not_or] at hc
    obtain ⟨hquote, hslash, hb, ht, hn, hf, hr⟩ := hc
    have hescape : escapeChar c =
        if c.toNat < 32 then ['\\', 'u', '0', '0', hexDigit (c.toNat / 16), hexDigit c.toNat]
        else [c] := by
      simp [escapeChar, hquote, hslash, hb, ht, hn, hf, hr]
    have hpiece : pieceOf c = if c.toNat < 32 then .code c.toNat else .char c := by
      simp [pieceOf, hb, ht, hn, hf, hr]
    by_cases hcontrol : c.toNat < 32
    · rw [hescape, hpiece, if_pos hcontrol, if_pos hcontrol]
      exact run_code (by omega) read found rest
    · have hstep : step ⟨.text read, found⟩ c = some ⟨.text (.char c :: read), found⟩ := by
        simp [step, hquote, hslash, hcontrol]
      rw [hescape, hpiece, if_neg hcontrol, if_neg hcontrol, List.singleton_append, run_cons, hstep,
        Option.bind_some]

theorem Spells.text (s : String) : Spells (writeText s) [.text (s.toList.map pieceOf)] := by
  have hchars : ∀ (cs : List Char) (read : List Piece) found rest,
      run ⟨.text read, found⟩ (cs.flatMap escapeChar ++ rest) =
        run ⟨.text ((cs.map pieceOf).reverse ++ read), found⟩ rest := by
    intro cs
    induction cs with
    | nil => simp
    | cons c cs ih => simp [List.flatMap_cons, run_escapeChar, ih]
  intro found rest _
  have hopen : ∀ cs, run ⟨.between, found⟩ ('"' :: cs) = run ⟨.text [], found⟩ cs := fun _ ↦ rfl
  have hclose : ∀ read, run ⟨.text read, found⟩ ('"' :: rest) =
      run ⟨.between, .text read.reverse :: found⟩ rest := fun _ ↦ rfl
  rw [writeText, List.cons_append, hopen, hchars, hclose]
  simp

end Token

theorem charsOfPieces?_code {n : Nat} (hn : n < 0xD800) (ps : List Piece) :
    charsOfPieces? (.code n :: ps) = (charsOfPieces? ps).map (Char.ofNat n :: ·) := by
  have hhigh : ¬0xD800 ≤ n := by omega
  have hlow : ¬0xDC00 ≤ n := by omega
  cases ps with
  | nil => simp [charsOfPieces?, hhigh]
  | cons p ps =>
    cases p with
    | char c => simp [charsOfPieces?, hhigh]
    | code low => simp [charsOfPieces?, hhigh, hlow]

theorem textOfPieces?_pieceOf (s : String) :
    textOfPieces? (s.toList.map Token.pieceOf) = some s := by
  have hchars : ∀ cs : List Char, charsOfPieces? (cs.map Token.pieceOf) = some cs := by
    intro cs
    induction cs with
    | nil => rfl
    | cons c cs ih =>
      rw [List.map_cons, Token.pieceOf]
      split
      case isTrue h =>
        have hlt : c.toNat < 0xD800 := Nat.lt_trans h.1 (by decide)
        rw [charsOfPieces?_code hlt, ih, Option.map_some, Char.ofNat_toNat]
      case isFalse => rw [charsOfPieces?, ih, Option.map_some]
  rw [textOfPieces?, hchars, Option.map_some, String.ofList_toList]

/-! ## The tokens of a value

Tokens are a description of values between the writer and the reader, and neither of them makes use
of it. Values that a text could not show are kept out by `Legible`: the parts of a broken text, and
numerals that are no words or are read as something else. -/

mutual

def tokens : Json → List Token
  | .null => [.word "null".toList]
  | .bool true => [.word "true".toList]
  | .bool false => [.word "false".toList]
  | .number numeral => [.word numeral.toList]
  | .text s => [.text (s.toList.map Token.pieceOf)]
  | .broken => [.text [.code 0xD800]]
  | .array items => .bracketOpen :: itemTokens items ++ [.bracketClose]
  | .object members => .braceOpen :: memberTokens members ++ [.braceClose]

def itemTokens : List Json → List Token
  | [] => []
  | [v] => v.tokens
  | v :: vs => v.tokens ++ .comma :: itemTokens vs

def memberTokens : List (String × Json) → List Token
  | [] => []
  | [(k, v)] => .text (k.toList.map Token.pieceOf) :: .colon :: v.tokens
  | (k, v) :: ms =>
    .text (k.toList.map Token.pieceOf) :: .colon :: (v.tokens ++ .comma :: memberTokens ms)

end

/-- A value that a text can show: nothing in it is broken, and its numerals are words that are read
as numbers. -/
inductive Legible : Json → Prop
  | null : Legible .null
  | bool (b : Bool) : Legible (.bool b)
  | number {numeral : String} (hw : ∀ c ∈ numeral.toList, Token.isWordChar c = true)
    (h : ofWord? numeral.toList = some (.number numeral)) : Legible (.number numeral)
  | text (s : String) : Legible (.text s)
  | array {items : List Json} (h : ∀ v ∈ items, Legible v) : Legible (.array items)
  | object {members : List (String × Json)} (h : ∀ m ∈ members, Legible m.2) :
    Legible (.object members)

section Write

open Token (Spells breaksWord)

variable {g : List Char → List Char} {us : List Token}

theorem spells_name {name : String} (hname : name ∈ ["null", "true", "false"]) :
    Spells (name.toList ++ ·) [.word name.toList] := by
  simp only [List.mem_cons, List.not_mem_nil, or_false] at hname
  rcases hname with rfl | rfl | rfl <;> exact .word nofun (List.all_eq_true.mp rfl)

theorem spells_number {numeral : String} (hw : ∀ c ∈ numeral.toList, Token.isWordChar c = true)
    (h : ofWord? numeral.toList = some (.number numeral)) :
    Spells (numeral.toList ++ ·) [.word numeral.toList] := by
  refine .word (fun hnil ↦ ?_) hw
  rw [hnil] at h
  cases h

theorem spells_key (k : String) (hg : Spells g us) :
    Spells (fun rest ↦ writeText k (':' :: g rest))
      (.text (k.toList.map Token.pieceOf) :: .colon :: us) :=
  (Spells.text k).before (hg.mark (c := ':') fun _ ↦ rfl) fun _ ↦ rfl

/-- How elements are written and cut into tokens one after the other, with commas between them. -/
structure Separates {α : Type} (emit : α → List Char → List Char) (toks : α → List Token)
    (emitAll : List α → List Char → List Char) (allToks : List α → List Token) : Prop where
  emit_nil : ∀ rest, emitAll [] rest = rest
  emit_one : ∀ a rest, emitAll [a] rest = emit a rest
  emit_cons : ∀ a b as rest, emitAll (a :: b :: as) rest = emit a (',' :: emitAll (b :: as) rest)
  toks_nil : allToks [] = []
  toks_one : ∀ a, allToks [a] = toks a
  toks_cons : ∀ a b as, allToks (a :: b :: as) = toks a ++ .comma :: allToks (b :: as)

theorem Separates.spells {α : Type} {emit : α → List Char → List Char} {toks : α → List Token}
    {emitAll : List α → List Char → List Char} {allToks : List α → List Token}
    (hs : Separates emit toks emitAll allToks) {as : List α}
    (h : ∀ a ∈ as, Spells (emit a) (toks a)) (hg : Spells g us)
    (hb : ∀ rest, breaksWord (g rest)) :
    Spells (fun rest ↦ emitAll as (g rest)) (allToks as ++ us) := by
  induction as with
  | nil => simpa only [hs.emit_nil, hs.toks_nil, List.nil_append] using hg
  | cons a as ih =>
    obtain ⟨ha, has⟩ := List.forall_mem_cons.mp h
    cases as with
    | nil => simpa only [hs.emit_one, hs.toks_one] using ha.before hg hb
    | cons b as =>
      have hrest := (ih has).mark (c := ',') (t := .comma) fun _ ↦ rfl
      simpa only [hs.emit_cons, hs.toks_cons, List.append_assoc, List.cons_append] using
        ha.before hrest fun _ ↦ rfl

def oneMemberTokens (m : String × Json) : List Token :=
  .text (m.1.toList.map Token.pieceOf) :: .colon :: m.2.tokens

theorem separates_items : Separates write tokens writeItems itemTokens :=
  ⟨fun _ ↦ rfl, fun _ _ ↦ rfl, fun _ _ _ _ ↦ rfl, rfl, fun _ ↦ rfl, fun _ _ _ ↦ rfl⟩

theorem separates_members :
    Separates (fun m rest ↦ writeText m.1 (':' :: write m.2 rest)) oneMemberTokens writeMembers
      memberTokens :=
  ⟨fun _ ↦ rfl, fun _ _ ↦ rfl, fun _ _ _ _ ↦ rfl, rfl, fun _ ↦ rfl, fun _ _ _ ↦ rfl⟩

/-- The compact text of a value spells its tokens. -/
theorem Legible.spells_write {v : Json} (hv : v.Legible) : Spells (write v) v.tokens := by
  induction hv with
  | null => exact spells_name (by simp)
  | bool b => cases b <;> exact spells_name (by simp)
  | number hw h => exact spells_number hw h
  | text s => exact .text s
  | array h ih =>
    have hclose : Spells (fun rest ↦ ']' :: rest) [.bracketClose] := .mark (fun _ ↦ rfl) .nothing
    exact (separates_items.spells ih hclose fun _ ↦ rfl).mark fun _ ↦ rfl
  | object h ih =>
    have hclose : Spells (fun rest ↦ '}' :: rest) [.braceClose] := .mark (fun _ ↦ rfl) .nothing
    have hmembers := separates_members.spells (fun m hm ↦ spells_key m.1 (ih m hm)) hclose
      fun _ ↦ rfl
    exact hmembers.mark fun _ ↦ rfl

/-! The lines and the spaces of the other layout lie between tokens, so they bring none. -/

theorem separates_prettyItems (level : Nat) :
    Separates (fun v rest ↦ newLine (level + 1) (writePretty (level + 1) v rest)) tokens
      (prettyItems level) itemTokens :=
  ⟨fun _ ↦ rfl, fun _ _ ↦ rfl, fun _ _ _ _ ↦ rfl, rfl, fun _ ↦ rfl, fun _ _ _ ↦ rfl⟩

theorem separates_prettyMembers (level : Nat) :
    Separates (fun m rest ↦ newLine (level + 1)
        (writeText m.1 (':' :: ' ' :: writePretty (level + 1) m.2 rest)))
      oneMemberTokens (prettyMembers level) memberTokens :=
  ⟨fun _ ↦ rfl, fun _ _ ↦ rfl, fun _ _ _ _ ↦ rfl, rfl, fun _ ↦ rfl, fun _ _ _ ↦ rfl⟩

/-- The text of a value with a line for each item and member spells its tokens, at every level. -/
theorem Legible.spells_writePretty {v : Json} (hv : v.Legible) :
    ∀ level, Spells (writePretty level v) v.tokens := by
  induction hv with
  | null => exact fun _ ↦ spells_name (by simp)
  | bool b => cases b <;> exact fun _ ↦ spells_name (by simp)
  | number hw h => exact fun _ ↦ spells_number hw h
  | text s => exact fun _ ↦ .text s
  | @array items h ih =>
    intro level
    have hclose : Spells (fun rest ↦ ']' :: rest) [.bracketClose] := .mark (fun _ ↦ rfl) .nothing
    cases items with
    | nil => exact hclose.mark fun _ ↦ rfl
    | cons v vs =>
      have hitems := (separates_prettyItems level).spells
        (fun v hv ↦ (ih v hv (level + 1)).newLine (level + 1)) (hclose.newLine level) fun _ ↦ rfl
      exact hitems.mark fun _ ↦ rfl
  | @object members h ih =>
    intro level
    have hclose : Spells (fun rest ↦ '}' :: rest) [.braceClose] := .mark (fun _ ↦ rfl) .nothing
    cases members with
    | nil => exact hclose.mark fun _ ↦ rfl
    | cons m ms =>
      have hmembers := (separates_prettyMembers level).spells
        (fun m hm ↦
          (spells_key m.1 ((ih m hm (level + 1)).blank (c := ' ') rfl)).newLine (level + 1))
        (hclose.newLine level) fun _ ↦ rfl
      exact hmembers.mark fun _ ↦ rfl

theorem Token.Spells.ofChars?_eq {f : List Char → List Char} {ts : List Token}
    (hf : Spells f ts) : Token.ofChars? (f []) = some ts := by
  have h := hf [] [] rfl
  rw [List.append_nil] at h
  have hend : Token.run ⟨.between, ts.reverse⟩ [] = some ts := by
    change some ts.reverse.reverse = some ts
    rw [List.reverse_reverse]
  exact h.trans hend

end Write

/-! ## The value of tokens -/

section Read

theorem ofPieces_pieceOf (s : String) : ofPieces (s.toList.map Token.pieceOf) = .text s := by
  rw [ofPieces, textOfPieces?_pieceOf]

theorem ofMembers_pieceOf (ms : List (String × Json)) :
    ofMembers (ms.map fun m ↦ (m.1.toList.map Token.pieceOf, m.2)) = .object ms := by
  have h : (ms.map fun m ↦ (m.1.toList.map Token.pieceOf, m.2)).mapM
      (fun m ↦ (textOfPieces? m.1).map (·, m.2)) = some ms := by
    induction ms with
    | nil => rfl
    | cons m ms ih =>
      rw [List.map_cons, List.mapM_cons, ih, textOfPieces?_pieceOf]
      rfl
  rw [ofMembers, h]

theorem exists_tokens_cons (v : Json) :
    ∃ t ts, v.tokens = t :: ts ∧ t ≠ .bracketClose := by
  cases v with
  | bool b => cases b <;> simp [tokens]
  | null | number | text | broken | array | object => simp [tokens]

variable {v : Json} {vs : List Json} {ms : List (String × Json)}

/-- With so much fuel as there are tokens, the tokens of a value are read as the value, whatever
comes after them. -/
def IsRead (v : Json) : Prop :=
  ∀ fuel ts, v.tokens.length ≤ fuel → readValue fuel (v.tokens ++ ts) = some (v, ts)

theorem IsRead.of_succ (h : ∀ n ts, v.tokens.length ≤ n + 1 →
    readValue (n + 1) (v.tokens ++ ts) = some (v, ts)) : v.IsRead := by
  intro fuel ts hfuel
  cases fuel with
  | zero =>
    obtain ⟨t, us, hv, -⟩ := v.exists_tokens_cons
    rw [hv, List.length_cons] at hfuel
    omega
  | succ n => exact h n ts hfuel

theorem itemTokens_cons_cons (v w : Json) (vs : List Json) :
    itemTokens (v :: w :: vs) = v.tokens ++ .comma :: itemTokens (w :: vs) := rfl

theorem memberTokens_cons_cons (k : String) (v : Json) (m : String × Json)
    (ms : List (String × Json)) :
    memberTokens ((k, v) :: m :: ms) =
      .text (k.toList.map Token.pieceOf) :: .colon ::
        (v.tokens ++ .comma :: memberTokens (m :: ms)) := rfl

theorem readItems_eq (hne : vs ≠ []) (h : ∀ v ∈ vs, v.IsRead) (fuel : Nat) (ts : List Token)
    (hfuel : (itemTokens vs).length < fuel) :
    readItems fuel (itemTokens vs ++ .bracketClose :: ts) = some (vs, ts) := by
  induction vs generalizing fuel with
  | nil => exact absurd rfl hne
  | cons v vs ih =>
    obtain ⟨hv, hvs⟩ := List.forall_mem_cons.mp h
    obtain ⟨n, rfl⟩ := Nat.exists_eq_succ_of_ne_zero (Nat.ne_zero_of_lt hfuel)
    cases vs with
    | nil =>
      have hread := hv n (.bracketClose :: ts) (Nat.le_of_lt_succ hfuel)
      rw [itemTokens, readItems, hread]
    | cons w vs =>
      rw [itemTokens_cons_cons, List.length_append, List.length_cons] at hfuel
      have hread := hv n (.comma :: (itemTokens (w :: vs) ++ .bracketClose :: ts)) (by omega)
      have hrest := ih (List.cons_ne_nil _ _) hvs n (by omega)
      rw [itemTokens_cons_cons, List.append_assoc, List.cons_append, readItems, hread]
      simp only [hrest, Option.map_some]

theorem readMembers_eq (hne : ms ≠ []) (h : ∀ m ∈ ms, m.2.IsRead) (fuel : Nat)
    (ts : List Token) (hfuel : (memberTokens ms).length < fuel) :
    readMembers fuel (memberTokens ms ++ .braceClose :: ts) =
      some (ms.map fun m ↦ (m.1.toList.map Token.pieceOf, m.2), ts) := by
  induction ms generalizing fuel with
  | nil => exact absurd rfl hne
  | cons m ms ih =>
    obtain ⟨k, v⟩ := m
    have hv : v.IsRead := h _ List.mem_cons_self
    have hms : ∀ m ∈ ms, m.2.IsRead := fun m hm ↦ h m (List.mem_cons_of_mem _ hm)
    obtain ⟨n, rfl⟩ := Nat.exists_eq_succ_of_ne_zero (Nat.ne_zero_of_lt hfuel)
    cases ms with
    | nil =>
      rw [memberTokens, List.length_cons, List.length_cons] at hfuel
      have hread := hv n (.braceClose :: ts) (by omega)
      rw [memberTokens, List.cons_append, List.cons_append, readMembers, hread]
      rfl
    | cons m ms =>
      rw [memberTokens_cons_cons, List.length_cons, List.length_cons, List.length_append,
        List.length_cons] at hfuel
      have hread := hv n (.comma :: (memberTokens (m :: ms) ++ .braceClose :: ts)) (by omega)
      have hrest := ih (List.cons_ne_nil _ _) hms n (by omega)
      rw [memberTokens_cons_cons, List.cons_append, List.cons_append, List.append_assoc,
        List.cons_append, readMembers, hread]
      simp only [hrest, Option.map_some, List.map_cons]

theorem readValue_bracketOpen (n : Nat) {t : Token} (ts : List Token) (h : t ≠ .bracketClose) :
    readValue (n + 1) (.bracketOpen :: t :: ts) =
      (readItems n (t :: ts)).map fun r ↦ (.array r.1, r.2) := by
  cases t <;> first | rfl | exact absurd rfl h

theorem exists_itemTokens_cons (v : Json) (vs : List Json) :
    ∃ t ts, itemTokens (v :: vs) = t :: ts ∧ t ≠ .bracketClose := by
  obtain ⟨t, ts, hv, ht⟩ := v.exists_tokens_cons
  cases vs with
  | nil => exact ⟨t, ts, hv, ht⟩
  | cons w vs =>
    rw [itemTokens_cons_cons, hv]
    exact ⟨t, _, rfl, ht⟩

theorem isRead_array {items : List Json} (h : ∀ v ∈ items, v.IsRead) : (array items).IsRead := by
  refine .of_succ fun n ts hfuel ↦ ?_
  cases items with
  | nil => rfl
  | cons v vs =>
    rw [tokens, List.cons_append, List.length_cons, List.length_append, List.length_singleton]
      at hfuel
    have hread := readItems_eq (List.cons_ne_nil v vs) h n ts (by omega)
    -- the reader looks at the first token to tell an empty array, which has no items to be read
    obtain ⟨t, us, hitems, ht⟩ := exists_itemTokens_cons v vs
    rw [tokens, List.append_assoc, List.cons_append, List.singleton_append]
    rw [hitems, List.cons_append] at hread ⊢
    rw [readValue_bracketOpen n _ ht, hread, Option.map_some]

theorem isRead_object {members : List (String × Json)} (h : ∀ m ∈ members, m.2.IsRead) :
    (object members).IsRead := by
  refine .of_succ fun n ts hfuel ↦ ?_
  cases members with
  | nil => rfl
  | cons m ms =>
    rw [tokens, List.cons_append, List.length_cons, List.length_append, List.length_singleton]
      at hfuel
    have hread := readMembers_eq (List.cons_ne_nil m ms) h n ts (by omega)
    -- an object that is not empty goes on with a key
    have hopen : ∀ us, readValue (n + 1) (.braceOpen :: (memberTokens (m :: ms) ++ us)) =
        (readMembers n (memberTokens (m :: ms) ++ us)).map fun r ↦ (ofMembers r.1, r.2) := by
      intro us
      cases ms <;> rfl
    rw [tokens, List.append_assoc, List.cons_append, List.singleton_append, hopen, hread,
      Option.map_some, ofMembers_pieceOf]

theorem Legible.isRead (hv : v.Legible) : v.IsRead := by
  induction hv with
  | null => exact .of_succ fun _ _ _ ↦ rfl
  | bool b => cases b <;> exact .of_succ fun _ _ _ ↦ rfl
  | number hw h =>
    refine .of_succ fun n ts _ ↦ ?_
    rw [tokens, List.singleton_append, readValue, h, Option.map_some]
  | text s =>
    refine .of_succ fun n ts _ ↦ ?_
    rw [tokens, List.singleton_append, readValue, ofPieces_pieceOf]
  | array h ih => exact isRead_array ih
  | object h ih => exact isRead_object ih

theorem Legible.ofTokens?_eq (hv : v.Legible) : ofTokens? v.tokens = some v := by
  have hread := hv.isRead (2 * v.tokens.length + 2) [] (by omega)
  rw [List.append_nil] at hread
  rw [ofTokens?, hread]

end Read

/-! ## The texts of a value -/

variable {v : Json}

theorem Legible.parse?_compact (hv : v.Legible) : parse? v.compact = some v := by
  rw [parse?, compact, String.toList_ofList, hv.spells_write.ofChars?_eq, Option.bind_some,
    hv.ofTokens?_eq]

/-- The text of a value with a line for each item and member is read back as the value. -/
theorem Legible.parse?_pretty (hv : v.Legible) : parse? v.pretty = some v := by
  rw [parse?, pretty, String.toList_ofList, (hv.spells_writePretty 0).ofChars?_eq,
    Option.bind_some, hv.ofTokens?_eq]

end BuildFleet.Json
