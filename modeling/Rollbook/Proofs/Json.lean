import Rollbook.Json
import Rollbook.Proofs.Digits
/-
  Rollbook.Proofs.Json — a value is read back from its compact text.

  The two halves of the reader meet at the tokens of a value. Cutting the text of a
  value yields its tokens and stops where the value stops (`cutFrom_write`), and reading
  the tokens of a value completes it over whatever stack of brackets is open
  (`run_tokens`).

  A numeral ends at the first character that does not continue it, so what stands behind
  a value matters (`Ended`). The writer puts there the end of the text, a comma or a
  closing bracket, and none of these continues a numeral.
-/

namespace Rollbook.Json

open Rollbook.Text

/-! ## Tokens of a value -/

mutual

/-- The tokens of the compact text of a value. -/
def tokens : Json → List Token
  | .null => [.null]
  | .bool b => [.bool b]
  | .number n => [.number n]
  | .string s => [.string s]
  | .array items => .openBracket :: (tokensOfItems items ++ [.closeBracket])
  | .object members => .openBrace :: (tokensOfMembers members ++ [.closeBrace])

def tokensOfItems : List Json → List Token
  | [] => []
  | [v] => tokens v
  | v :: w :: vs => tokens v ++ .comma :: tokensOfItems (w :: vs)

def tokensOfMembers : List (Option String × Json) → List Token
  | [] => []
  | [(k, v)] => .string k :: .colon :: tokens v
  | (k, v) :: m :: ms => .string k :: .colon :: (tokens v ++ .comma :: tokensOfMembers (m :: ms))

end

/-- What stands for the fraction of a numeral are digits. -/
def Numeral.Digital (n : Numeral) : Prop := ∀ t, n.tail = some t → ∀ c ∈ t.fraction, c.isDigit = true

mutual

/-- Every fraction in the value is made of digits. -/
def Digital : Json → Prop
  | .number n => n.Digital
  | .array items => DigitalItems items
  | .object members => DigitalMembers members
  | _ => True

def DigitalItems : List Json → Prop
  | [] => True
  | v :: vs => Digital v ∧ DigitalItems vs

def DigitalMembers : List (Option String × Json) → Prop
  | [] => True
  | (_, v) :: ms => Digital v ∧ DigitalMembers ms

end

/-- No character comes next that continues a numeral. -/
def Ended (cs : List Char) : Prop := ∀ c, cs.head? = some c → ∀ f : Figure, f.next c = none

theorem ended_nil : Ended [] := by
  intro c h
  cases h

theorem ended_of_next {c : Char} (h : ∀ f : Figure, f.next c = none) (cs : List Char) : Ended (c :: cs) := by
  intro d hd
  cases hd
  exact h

theorem ended_cons {c : Char} (h : c = ',' ∨ c = ']' ∨ c = '}') (cs : List Char) : Ended (c :: cs) := by
  refine ended_of_next (fun f => ?_) cs
  rcases h with rfl | rfl | rfl <;> cases f <;> rfl

namespace Token

theorem cutFrom_step {m m' : Mode} {c : Char} {ts : List Token} (h : m.step c = some (ts, m'))
    (out : List Token) (cs : List Char) : cutFrom m out (c :: cs) = cutFrom m' (ts.reverse ++ out) cs := by
  rw [cutFrom, h]

theorem cutFrom_quiet {m m' : Mode} {c : Char} (h : m.step c = some ([], m')) (out : List Token)
    (cs : List Char) : cutFrom m out (c :: cs) = cutFrom m' out cs := cutFrom_step h out cs

/-! ## Numerals -/

/-- A character that continues the numeral. -/
theorem cutFrom_next {f f' : Figure} {c : Char} (h : f.next c = some f') (out : List Token) (cs : List Char) :
    cutFrom (.figure f) out (c :: cs) = cutFrom (.figure f') out cs := by
  refine cutFrom_quiet ?_ out cs
  simp only [Mode.step, h]

/-- What stands behind a numeral ends it and is cut as if it stood between tokens. -/
theorem cutFrom_finish {f : Figure} {n : Numeral} (hf : f.finish = some n) {rest : List Char}
    (hr : Ended rest) (out : List Token) :
    cutFrom (.figure f) out rest = cutFrom .between (.number n :: out) rest := by
  cases rest with
  | nil => simp [cutFrom, Mode.finish, hf]
  | cons c cs =>
    have hnext := hr c rfl f
    have hbetween : Mode.between.step c = Mode.start c := rfl
    rw [cutFrom, cutFrom, hbetween]
    cases hstart : Mode.start c with
    | none => simp only [Mode.step, hnext, hf, hstart]
    | some started => simp [Mode.step, hnext, hf, hstart]

/-- A run of digits in a place `g` where digits are collected. -/
theorem cutFrom_digits {g : List Char → Figure}
    (hg : ∀ ds c, c.isDigit = true → (g ds).next c = some (g (c :: ds))) {es : List Char}
    (he : ∀ c ∈ es, c.isDigit = true) (ds : List Char) (out : List Token) (rest : List Char) :
    cutFrom (.figure (g ds)) out (es ++ rest) = cutFrom (.figure (g (es.reverse ++ ds))) out rest := by
  induction es generalizing ds with
  | nil => rfl
  | cons e es ih =>
    have hrest : ∀ c ∈ es, c.isDigit = true := fun c hc => he c (List.mem_cons_of_mem e hc)
    rw [List.cons_append, cutFrom_next (hg ds e (he e List.mem_cons_self)), ih hrest, List.reverse_cons,
      List.append_assoc]
    rfl

theorem next_whole (negative : Bool) (ds : List Char) (c : Char) (h : c.isDigit = true) :
    (Figure.whole negative ds).next c = some (.whole negative (c :: ds)) := if_pos h

theorem next_fraction (negative : Bool) (whole : Nat) (ds : List Char) (c : Char) (h : c.isDigit = true) :
    (Figure.fraction negative whole ds).next c = some (.fraction negative whole (c :: ds)) := if_pos h

theorem next_power (negative : Bool) (whole : Nat) (fraction : List Char) (down : Bool) (ds : List Char)
    (c : Char) (h : c.isDigit = true) :
    (Figure.power negative whole fraction down ds).next c =
      some (.power negative whole fraction down (c :: ds)) := if_pos h

theorem start_digit {c : Char} (h : c.isDigit = true) (hne : c ≠ '0') :
    Mode.start c = some ([], .figure (.whole false [c])) := by
  have other : ∀ x : Char, x.isDigit = false → c ≠ x := by
    rintro x hx rfl
    rw [h] at hx
    cases hx
  have hgap : Mode.isGap c = false := by
    simp [Mode.isGap, other ' ' rfl, other '\n' rfl, other '\t' rfl, other '\r' rfl]
  simp [Mode.start, hgap, h, hne, other '{' rfl, other '}' rfl, other '[' rfl, other ']' rfl, other ':' rfl,
    other ',' rfl, other '"' rfl, other 'n' rfl, other 't' rfl, other 'f' rfl, other '-' rfl]

/-- The state after the whole part of a numeral. -/
def afterWhole (negative : Bool) (whole : Nat) : Figure :=
  if whole = 0 then .zero negative else .whole negative (digits whole).reverse

theorem cutFrom_whole (negative : Bool) (whole : Nat) (out : List Token) (rest : List Char) :
    cutFrom .between out ((if negative then ['-'] else []) ++ digits whole ++ rest) =
      cutFrom (.figure (afterWhole negative whole)) out rest := by
  unfold afterWhole
  by_cases h0 : whole = 0
  · rw [if_pos h0, h0]
    cases negative <;> rfl
  · rw [if_neg h0]
    obtain ⟨d, ds, hd, hne⟩ := digits_of_pos (Nat.pos_of_ne_zero h0)
    have hdigit : ∀ c ∈ d :: ds, c.isDigit = true := by
      intro c hc
      rw [← hd] at hc
      exact isDigit_of_mem_digits hc
    have hds : ∀ c ∈ ds, c.isDigit = true := fun c hc => hdigit c (List.mem_cons_of_mem d hc)
    have hfirst := hdigit d List.mem_cons_self
    rw [hd, List.reverse_cons]
    -- the first digit opens the numeral, the others are collected behind it
    have hopen : cutFrom .between out ((if negative then ['-'] else []) ++ d :: ds ++ rest) =
        cutFrom (.figure (.whole negative [d])) out (ds ++ rest) := by
      cases negative with
      | true =>
        have hstep : (Figure.minus).next d = some (.whole true [d]) := by
          unfold Figure.next
          rw [if_neg hne, if_pos hfirst]
        show cutFrom .between out ('-' :: d :: (ds ++ rest)) = _
        rw [cutFrom_step (show Mode.between.step '-' = some ([], .figure .minus) from rfl)]
        exact cutFrom_next hstep out _
      | false =>
        have hstep : Mode.between.step d = some ([], .figure (.whole false [d])) := start_digit hfirst hne
        exact cutFrom_quiet hstep out _
    rw [hopen, cutFrom_digits (next_whole negative) hds]

theorem finish_afterWhole (negative : Bool) (whole : Nat) :
    (afterWhole negative whole).finish = some ⟨negative, whole, none⟩ := by
  unfold afterWhole
  by_cases h0 : whole = 0
  · rw [if_pos h0, h0]
    rfl
  · rw [if_neg h0]
    show some (Numeral.mk negative (value (digits whole).reverse.reverse) none) = _
    rw [List.reverse_reverse, value_digits]

theorem afterWhole_point (negative : Bool) (whole : Nat) :
    (afterWhole negative whole).next '.' = some (.point negative whole) := by
  unfold afterWhole
  by_cases h0 : whole = 0
  · rw [if_pos h0, h0]
    rfl
  · rw [if_neg h0]
    show some (Figure.point negative (value (digits whole).reverse.reverse)) = _
    rw [List.reverse_reverse, value_digits]

theorem afterWhole_mark (negative : Bool) (whole : Nat) :
    (afterWhole negative whole).next 'e' = some (.mark negative whole []) := by
  unfold afterWhole
  by_cases h0 : whole = 0
  · rw [if_pos h0, h0]
    rfl
  · rw [if_neg h0]
    show some (Figure.mark negative (value (digits whole).reverse.reverse) []) = _
    rw [List.reverse_reverse, value_digits]

/-- The fraction up to the mark of the exponent. -/
theorem cutFrom_fraction (negative : Bool) (whole : Nat) {fraction : List Char}
    (hd : ∀ c ∈ fraction, c.isDigit = true) (out : List Token) (rest : List Char) :
    cutFrom (.figure (afterWhole negative whole)) out
        ((if fraction.isEmpty then [] else '.' :: fraction) ++ 'e' :: rest) =
      cutFrom (.figure (.mark negative whole fraction.reverse)) out rest := by
  cases fraction with
  | nil => exact cutFrom_next (afterWhole_mark negative whole) out rest
  | cons d ds =>
    have hds : ∀ c ∈ ds, c.isDigit = true := fun c hc => hd c (List.mem_cons_of_mem d hc)
    have hfirst : (Figure.point negative whole).next d = some (.fraction negative whole [d]) :=
      if_pos (hd d List.mem_cons_self)
    show cutFrom _ out ('.' :: d :: (ds ++ 'e' :: rest)) = _
    rw [cutFrom_next (afterWhole_point negative whole), cutFrom_next hfirst,
      cutFrom_digits (next_fraction negative whole) hds, ← List.reverse_cons]
    exact cutFrom_next rfl out rest

/-- The digits of the exponent, once its sign is read. -/
theorem cutFrom_power {f : Figure} {negative down : Bool} {whole : Nat} {fraction : List Char}
    (hf : ∀ c, c.isDigit = true → f.next c = some (.power negative whole fraction down [c])) (n : Nat)
    (out : List Token) (rest : List Char) :
    cutFrom (.figure f) out (digits n ++ rest) =
      cutFrom (.figure (.power negative whole fraction down (digits n).reverse)) out rest := by
  have hd : ∀ c ∈ digits n, c.isDigit = true := fun _ => isDigit_of_mem_digits
  cases he : digits n with
  | nil => exact absurd he Nat.toDigits_ne_nil
  | cons d ds =>
    rw [he] at hd
    have hds : ∀ c ∈ ds, c.isDigit = true := fun c hc => hd c (List.mem_cons_of_mem d hc)
    rw [List.cons_append, cutFrom_next (hf d (hd d List.mem_cons_self)),
      cutFrom_digits (next_power negative whole fraction down) hds, List.reverse_cons]

theorem next_mark_digit (negative : Bool) (whole : Nat) (fraction : List Char) (c : Char) (h : c.isDigit = true) :
    (Figure.mark negative whole fraction).next c = some (.power negative whole fraction false [c]) := by
  have hplus : c ≠ '+' := by
    rintro rfl
    cases h
  have hminus : c ≠ '-' := by
    rintro rfl
    cases h
  simp only [Figure.next, if_neg hplus, if_neg hminus, if_pos h]

theorem cutFrom_exponent (negative : Bool) (whole : Nat) (fraction : List Char) (exponent : Int)
    (out : List Token) {rest : List Char} (hr : Ended rest) :
    cutFrom (.figure (.mark negative whole fraction.reverse)) out (integer exponent ++ rest) =
      cutFrom .between (.number ⟨negative, whole, some ⟨fraction, exponent⟩⟩ :: out) rest := by
  have hfinish : ∀ (down : Bool) (n : Nat),
      (Figure.power negative whole fraction.reverse down (digits n).reverse).finish =
        some ⟨negative, whole, some ⟨fraction, if down then -(n : Int) else n⟩⟩ := by
    intro down n
    show some (Numeral.mk negative whole (some ⟨fraction.reverse.reverse,
      if down then -(value (digits n).reverse.reverse : Int) else value (digits n).reverse.reverse⟩)) = _
    rw [List.reverse_reverse, List.reverse_reverse, value_digits]
  cases exponent with
  | ofNat n =>
    show cutFrom _ out (digits n ++ rest) = _
    rw [cutFrom_power (next_mark_digit negative whole fraction.reverse)]
    exact cutFrom_finish (hfinish false n) hr out
  | negSucc n =>
    show cutFrom _ out ('-' :: (digits (n + 1) ++ rest)) = _
    have hsign : (Figure.mark negative whole fraction.reverse).next '-' =
        some (.sign negative whole fraction.reverse true) := rfl
    have hdigit : ∀ c, c.isDigit = true → (Figure.sign negative whole fraction.reverse true).next c =
        some (.power negative whole fraction.reverse true [c]) := fun c hc => if_pos hc
    rw [cutFrom_next hsign, cutFrom_power hdigit]
    exact cutFrom_finish (hfinish true (n + 1)) hr out

theorem cutFrom_number {n : Numeral} (hn : n.Digital) (out : List Token) {rest : List Char} (hr : Ended rest) :
    cutFrom .between out (n.write ++ rest) = cutFrom .between (.number n :: out) rest := by
  obtain ⟨negative, whole, tail⟩ := n
  unfold Numeral.write
  rw [List.append_assoc, cutFrom_whole]
  cases tail with
  | none => exact cutFrom_finish (finish_afterWhole negative whole) hr out
  | some t =>
    dsimp only
    rw [List.append_assoc, List.cons_append, cutFrom_fraction negative whole (hn t rfl),
      cutFrom_exponent negative whole t.fraction t.exponent out hr]

/-! ## Literals -/

theorem hexValue_hexDigit {n : Nat} (h : n < 16) : hexValue (hexDigit n) = some n := by
  have hall : ∀ n : Fin 16, hexValue (hexDigit n.val) = some n.val := by decide
  exact hall ⟨n, h⟩

/-- A character below the blank, written as the unit of an escape. -/
theorem cutFrom_unit {c : Char} (h : c.toNat < 0x20) {q : Quote} (hq : q.lead = none) (out : List Token)
    (rest : List Char) :
    cutFrom (.quote q) out
        ('\\' :: 'u' :: '0' :: '0' :: hexDigit (c.toNat / 16) :: hexDigit (c.toNat % 16) :: rest) =
      cutFrom (.quote (q.push c)) out rest := by
  have hhigh := hexValue_hexDigit (n := c.toNat / 16) (by omega)
  have hlow := hexValue_hexDigit (n := c.toNat % 16) (by omega)
  have hunit : q.pushUnit (c.toNat / 16 * 16 + c.toNat % 16) = q.push c := by
    rw [Nat.div_add_mod' c.toNat 16]
    have hfirst : ¬ 0xD800 ≤ c.toNat := by omega
    have hsecond : ¬ 0xDC00 ≤ c.toNat := by omega
    simp [Quote.pushUnit, Quote.push, hq, hfirst, hsecond, Char.ofNat_toNat]
  have hstep₁ : (Mode.unit q 1 0).step (hexDigit (c.toNat / 16)) = some ([], .unit q 0 (c.toNat / 16)) := by
    simp [Mode.step, hhigh]
  have hstep₀ : (Mode.unit q 0 (c.toNat / 16)).step (hexDigit (c.toNat % 16)) =
      some ([], .quote (q.push c)) := by
    simp [Mode.step, hlow, hunit]
  -- the first four characters are the same for all of them
  show cutFrom (.unit q 1 0) out (hexDigit (c.toNat / 16) :: hexDigit (c.toNat % 16) :: rest) = _
  rw [cutFrom_quiet hstep₁, cutFrom_quiet hstep₀]

/-- A character of a literal is read as it was written. -/
theorem cutFrom_writeChar (c : Char) {q : Quote} (hq : q.lead = none) (out : List Token) (rest : List Char) :
    cutFrom (.quote q) out (writeChar c ++ rest) = cutFrom (.quote (q.push c)) out rest := by
  unfold writeChar
  by_cases h₁ : c = '"'
  · rw [if_pos h₁, h₁]; rfl
  rw [if_neg h₁]
  by_cases h₂ : c = '\\'
  · rw [if_pos h₂, h₂]; rfl
  rw [if_neg h₂]
  by_cases h₃ : c = '\x08'
  · rw [if_pos h₃, h₃]; rfl
  rw [if_neg h₃]
  by_cases h₄ : c = '\x0c'
  · rw [if_pos h₄, h₄]; rfl
  rw [if_neg h₄]
  by_cases h₅ : c = '\n'
  · rw [if_pos h₅, h₅]; rfl
  rw [if_neg h₅]
  by_cases h₆ : c = '\r'
  · rw [if_pos h₆, h₆]; rfl
  rw [if_neg h₆]
  by_cases h₇ : c = '\t'
  · rw [if_pos h₇, h₇]; rfl
  rw [if_neg h₇]
  by_cases h₈ : c.toNat < 0x20
  · rw [if_pos h₈]
    exact cutFrom_unit h₈ hq out rest
  · rw [if_neg h₈]
    refine cutFrom_quiet ?_ out rest
    simp only [Mode.step, if_neg h₁, if_neg h₂, if_neg h₈]

theorem cutFrom_writeChars (cs : List Char) {q : Quote} (hq : q.lead = none) (hs : q.sound = true)
    (out : List Token) (rest : List Char) :
    cutFrom (.quote q) out (cs.flatMap writeChar ++ '"' :: rest) =
      cutFrom .between (.string (some (String.ofList (q.chars.reverse ++ cs))) :: out) rest := by
  induction cs generalizing q with
  | nil =>
    have htext : q.text = some (String.ofList (q.chars.reverse ++ [])) := by
      simp [Quote.text, hq, hs]
    rw [← htext]
    rfl
  | cons c cs ih =>
    have hpush : (q.push c).sound = true := by
      show (q.sound && q.lead.isNone) = true
      rw [hs, hq]
      rfl
    rw [List.flatMap_cons, List.append_assoc, cutFrom_writeChar c hq, ih rfl hpush]
    show cutFrom .between (.string (some (String.ofList ((c :: q.chars).reverse ++ cs))) :: out) rest = _
    rw [List.reverse_cons, List.append_assoc]
    rfl

theorem cutFrom_literal (s : Option String) (out : List Token) (rest : List Char) :
    cutFrom .between out (writeLiteral s ++ rest) = cutFrom .between (.string s :: out) rest := by
  cases s with
  | none => rfl
  | some s =>
    show cutFrom (.quote .start) out (s.toList.flatMap writeChar ++ ['"'] ++ rest) = _
    rw [List.append_assoc]
    show cutFrom (.quote .start) out (s.toList.flatMap writeChar ++ '"' :: rest) = _
    rw [cutFrom_writeChars s.toList rfl rfl]
    show cutFrom .between (.string (some (String.ofList s.toList)) :: out) rest = _
    rw [String.ofList_toList]

/-! ## Values -/

/-- A character between tokens that is a token of its own. -/
theorem cutFrom_mark {c : Char} {t : Token} (h : Mode.start c = some ([t], .between)) (out : List Token)
    (cs : List Char) : cutFrom .between out (c :: cs) = cutFrom .between (t :: out) cs :=
  cutFrom_step (m := .between) h out cs

mutual

/-- The text of a value is cut into its tokens, and cutting goes on where the value ends. -/
theorem cutFrom_write : ∀ v : Json, v.Digital → ∀ (out : List Token) (rest : List Char), Ended rest →
    cutFrom .between out (v.write ++ rest) = cutFrom .between (v.tokens.reverse ++ out) rest
  | .null, _, _, _, _ => rfl
  | .bool true, _, _, _, _ => rfl
  | .bool false, _, _, _, _ => rfl
  | .number _, hv, out, _, hr => cutFrom_number hv out hr
  | .string s, _, out, rest, _ => cutFrom_literal s out rest
  | .array items, hv, out, rest, _ => by
    have hitems := cutFrom_writeItems items hv (.openBracket :: out) (']' :: rest)
      (ended_cons (Or.inr (Or.inl rfl)) rest)
    rw [write, tokens, List.cons_append, List.cons_append, List.append_assoc, cutFrom_mark rfl]
    refine hitems.trans ?_
    rw [cutFrom_mark rfl]
    simp
  | .object members, hv, out, rest, _ => by
    have hmembers := cutFrom_writeMembers members hv (.openBrace :: out) ('}' :: rest)
      (ended_cons (Or.inr (Or.inr rfl)) rest)
    rw [write, tokens, List.cons_append, List.cons_append, List.append_assoc, cutFrom_mark rfl]
    refine hmembers.trans ?_
    rw [cutFrom_mark rfl]
    simp

theorem cutFrom_writeItems : ∀ vs : List Json, DigitalItems vs → ∀ (out : List Token) (rest : List Char),
    Ended rest →
    cutFrom .between out (writeItems vs ++ rest) = cutFrom .between ((tokensOfItems vs).reverse ++ out) rest
  | [], _, _, _, _ => rfl
  | [v], hv, out, rest, hr => cutFrom_write v hv.1 out rest hr
  | v :: w :: vs, hv, out, rest, hr => by
    have hfirst := cutFrom_write v hv.1 out (',' :: (writeItems (w :: vs) ++ rest))
      (ended_cons (Or.inl rfl) _)
    have hothers := cutFrom_writeItems (w :: vs) hv.2 (.comma :: (v.tokens.reverse ++ out)) rest hr
    rw [writeItems, tokensOfItems, List.append_assoc, List.cons_append, hfirst, cutFrom_mark rfl, hothers]
    simp

theorem cutFrom_writeMembers : ∀ ms : List (Option String × Json), DigitalMembers ms →
    ∀ (out : List Token) (rest : List Char), Ended rest →
    cutFrom .between out (writeMembers ms ++ rest) =
      cutFrom .between ((tokensOfMembers ms).reverse ++ out) rest
  | [], _, _, _, _ => rfl
  | [(k, v)], hv, out, rest, hr => by
    have hvalue := cutFrom_write v hv.1 (.colon :: .string k :: out) rest hr
    rw [writeMembers, tokensOfMembers, List.append_assoc, List.cons_append, cutFrom_literal, cutFrom_mark rfl,
      hvalue]
    simp
  | (k, v) :: m :: ms, hv, out, rest, hr => by
    have hvalue := cutFrom_write v hv.1 (.colon :: .string k :: out) (',' :: (writeMembers (m :: ms) ++ rest))
      (ended_cons (Or.inl rfl) _)
    have hothers := cutFrom_writeMembers (m :: ms) hv.2
      (.comma :: (v.tokens.reverse ++ .colon :: .string k :: out)) rest hr
    rw [writeMembers, tokensOfMembers, List.append_assoc, List.cons_append, List.append_assoc, List.cons_append,
      cutFrom_literal, cutFrom_mark rfl, hvalue, cutFrom_mark rfl, hothers]
    simp

end

end Token

/-! ## Reading the tokens -/

namespace Reading

theorem run_step {r r' : Reading} {t : Token} (h : r.step t = some r') (ts : List Token) :
    r.run (t :: ts) = r'.run ts := by
  rw [run, h]

/-- No value begins with a closing bracket. -/
theorem exists_first_token (v : Json) : ∃ t ts, v.tokens = t :: ts ∧ t ≠ .closeBracket := by
  cases v with
  | null | bool | number | string | array | object => exact ⟨_, _, rfl, (fun h => by cases h)⟩

/-- After an opening bracket the first item is read like any other. -/
theorem run_firstItem (v : Json) (stack : List Frame) (ts : List Token) :
    (Reading.firstItem stack).run (v.tokens ++ ts) = (Reading.value (.items [] :: stack)).run (v.tokens ++ ts) := by
  obtain ⟨t, us, ht, hne⟩ := exists_first_token v
  have hstep : (Reading.firstItem stack).step t = (Reading.value (.items [] :: stack)).step t := by
    cases t <;> first | rfl | exact absurd rfl hne
  rw [ht, List.cons_append, run, run, hstep]

mutual

/-- The tokens of a value complete it. -/
theorem run_tokens : ∀ (v : Json) (stack : List Frame) (ts : List Token),
    (Reading.value stack).run (v.tokens ++ ts) = (Reading.complete stack v).run ts
  | .null, _, _ => rfl
  | .bool _, _, _ => rfl
  | .number _, _, _ => rfl
  | .string _, _, _ => rfl
  | .array [], _, _ => rfl
  | .array (v :: vs), stack, ts => by
    have hitems := run_items (v :: vs) (List.cons_ne_nil v vs) [] stack ts
    rw [tokens, List.cons_append, List.append_assoc, run_step rfl]
    refine Eq.trans ?_ hitems
    cases vs with
    | nil => exact run_firstItem v stack _
    | cons w vs =>
      rw [tokensOfItems, List.append_assoc, List.append_assoc]
      exact run_firstItem v stack _
  | .object [], _, _ => rfl
  | .object ((k, v) :: ms), stack, ts => by
    have hmembers := run_members ((k, v) :: ms) (List.cons_ne_nil _ ms) [] stack ts
    rw [tokens, List.cons_append, List.append_assoc, run_step rfl]
    refine Eq.trans ?_ hmembers
    cases ms <;> rfl

theorem run_items : ∀ vs : List Json, vs ≠ [] → ∀ (done : List Json) (stack : List Frame) (ts : List Token),
    (Reading.value (.items done :: stack)).run (tokensOfItems vs ++ .closeBracket :: ts) =
      (Reading.complete stack (.array (done.reverse ++ vs))).run ts
  | [], h, _, _, _ => absurd rfl h
  | [v], _, done, stack, ts => by
    rw [tokensOfItems, run_tokens v, run_step rfl, List.reverse_cons]
  | v :: w :: vs, _, done, stack, ts => by
    rw [tokensOfItems, List.append_assoc, run_tokens v, List.cons_append, run_step rfl,
      run_items (w :: vs) (List.cons_ne_nil w vs) (v :: done) stack ts, List.reverse_cons, List.append_assoc]
    rfl

theorem run_members : ∀ ms : List (Option String × Json), ms ≠ [] →
    ∀ (done : List (Option String × Json)) (stack : List Frame) (ts : List Token),
    (Reading.key stack done).run (tokensOfMembers ms ++ .closeBrace :: ts) =
      (Reading.complete stack (.object (done.reverse ++ ms))).run ts
  | [], h, _, _, _ => absurd rfl h
  | [(k, v)], _, done, stack, ts => by
    rw [tokensOfMembers, List.cons_append, List.cons_append, run_step rfl, run_step rfl, run_tokens v,
      run_step rfl, List.reverse_cons]
  | (k, v) :: m :: ms, _, done, stack, ts => by
    rw [tokensOfMembers, List.cons_append, List.cons_append, List.append_assoc, run_step rfl, run_step rfl,
      run_tokens v, List.cons_append, run_step rfl,
      run_members (m :: ms) (List.cons_ne_nil m ms) ((k, v) :: done) stack ts, List.reverse_cons,
      List.append_assoc]
    rfl

end

end Reading

/-- Reading undoes compact writing. -/
theorem ofString?_compact {v : Json} (hv : v.Digital) : ofString? v.compact = some v := by
  have hcut : Token.cut v.write = some v.tokens := by
    have h := Token.cutFrom_write v hv [] [] ended_nil
    rw [List.append_nil, List.append_nil] at h
    unfold Token.cut
    rw [h]
    simp [Token.cutFrom, Mode.finish]
  have hrun : Reading.run (.value []) v.tokens = some v := by
    have h := Reading.run_tokens v [] []
    rwa [List.append_nil] at h
  unfold ofString? compact
  rw [String.toList_ofList]
  simp only [read?, hcut, ofTokens?, hrun]

end Rollbook.Json
