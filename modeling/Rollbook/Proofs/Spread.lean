import Rollbook.Proofs.Json
/-
  Rollbook.Proofs.Spread — blanks between the tokens of a text.

  The compact text of a value is its tokens written one after the other. The same value is
  read from a text in which there are blanks in front of the tokens, between them and
  behind them (`ofString?_of_spread`).

  A token that is complete by itself is cut in the same way whatever follows. A numeral is
  not: blanks end it, and so does every token but another numeral, and the tokens of a
  value never have two of these side by side (`Apart`).
-/

namespace Rollbook.Json

namespace Token

/-- A token as it is written. -/
def write : Token → List Char
  | .openBrace => ['{']
  | .closeBrace => ['}']
  | .openBracket => ['[']
  | .closeBracket => [']']
  | .colon => [':']
  | .comma => [',']
  | .null => "null".toList
  | .bool true => "true".toList
  | .bool false => "false".toList
  | .number n => n.write
  | .string s => writeLiteral s

def isNumber : Token → Bool
  | .number _ => true
  | _ => false

/-- The fraction of a numeral is made of digits. -/
def Digital : Token → Prop
  | .number n => n.Digital
  | _ => True

/-- The tokens do not begin with a numeral. -/
def Marked (ts : List Token) : Prop := ∀ t, ts.head? = some t → t.isNumber = false

/-- No two numerals stand side by side. -/
def Apart : List Token → Prop
  | [] => True
  | t :: ts => (t.isNumber = true → Marked ts) ∧ Apart ts

/-- Nothing but blanks. -/
def Gap (cs : List Char) : Prop := ∀ c ∈ cs, Mode.isGap c = true

/-- A text of these tokens with any blanks in front of them, between them and behind them. -/
inductive Spread : List Token → List Char → Prop
  | nil {gap : List Char} : Gap gap → Spread [] gap
  | cons {gap cs : List Char} {t : Token} {ts : List Token} : Gap gap → Spread ts cs →
      Spread (t :: ts) (gap ++ (t.write ++ cs))

/-! ## What ends a numeral -/

theorem next_gap {c : Char} (h : Mode.isGap c = true) (f : Figure) : f.next c = none := by
  have hcases : c = ' ' ∨ c = '\n' ∨ c = '\t' ∨ c = '\r' := by
    simpa [Mode.isGap, or_assoc] using h
  rcases hcases with rfl | rfl | rfl | rfl <;> cases f <;> rfl

/-- Every token but a numeral begins with a character that continues no numeral. -/
theorem exists_first {t : Token} (h : t.isNumber = false) :
    ∃ c cs, t.write = c :: cs ∧ ∀ f : Figure, f.next c = none := by
  cases t with
  | number n => cases h
  | bool b => cases b <;> exact ⟨_, _, rfl, fun f => by cases f <;> rfl⟩
  | string s => cases s <;> exact ⟨_, _, rfl, fun f => by cases f <;> rfl⟩
  | _ => exact ⟨_, _, rfl, fun f => by cases f <;> rfl⟩

theorem ended_gap {gap cs : List Char} (hg : Gap gap) (hcs : Ended cs) : Ended (gap ++ cs) := by
  cases gap with
  | nil => exact hcs
  | cons c gap => exact ended_of_next (next_gap (hg c List.mem_cons_self)) _

theorem ended_of_spread {ts : List Token} {cs : List Char} (h : Spread ts cs) (hm : Marked ts) : Ended cs := by
  cases h with
  | nil hg =>
    rw [← List.append_nil cs]
    exact ended_gap hg ended_nil
  | @cons gap cs t ts hg _ =>
    obtain ⟨c, us, hwrite, hnext⟩ := exists_first (hm t rfl)
    refine ended_gap hg ?_
    rw [hwrite, List.cons_append]
    exact ended_of_next hnext _

/-! ## Cutting -/

theorem cutFrom_gap {gap : List Char} (hg : Gap gap) (out : List Token) (cs : List Char) :
    cutFrom .between out (gap ++ cs) = cutFrom .between out cs := by
  induction gap with
  | nil => rfl
  | cons c gap ih =>
    have hc : Mode.between.step c = some ([], .between) := if_pos (hg c List.mem_cons_self)
    rw [List.cons_append, cutFrom_quiet hc]
    exact ih fun d hd => hg d (List.mem_cons_of_mem c hd)

theorem cutFrom_token {t : Token} (ht : t.Digital) {rest : List Char} (hr : t.isNumber = true → Ended rest)
    (out : List Token) : cutFrom .between out (t.write ++ rest) = cutFrom .between (t :: out) rest := by
  cases t with
  | number n => exact cutFrom_number ht out (hr rfl)
  | string s => exact cutFrom_literal s out rest
  | bool b => cases b <;> rfl
  | _ => rfl

/-- Tokens with blanks around them are cut as they are. -/
theorem cutFrom_spread {ts : List Token} {cs : List Char} (h : Spread ts cs) (hd : ∀ t ∈ ts, t.Digital)
    (ha : Apart ts) (out : List Token) : cutFrom .between out cs = some (out.reverse ++ ts) := by
  induction h generalizing out with
  | @nil gap hg =>
    have hgap := cutFrom_gap hg out []
    rw [List.append_nil] at hgap
    rw [hgap]
    rfl
  | @cons gap cs t ts hg hspread ih =>
    have hended : t.isNumber = true → Ended cs := fun hnumber => ended_of_spread hspread (ha.1 hnumber)
    rw [cutFrom_gap hg, cutFrom_token (hd t List.mem_cons_self) hended,
      ih (fun u hu => hd u (List.mem_cons_of_mem t hu)) ha.2, List.reverse_cons, List.append_assoc,
      List.singleton_append]

end Token

/-! ## The tokens of a value -/

open Token

theorem marked_nil : Marked [] := by
  intro t h
  cases h

theorem marked_cons {t : Token} (h : t.isNumber = false) (ts : List Token) : Marked (t :: ts) := by
  intro u hu
  cases hu
  exact h

theorem apart_mark {t : Token} (h : t.isNumber = false) {ts : List Token} (ha : Apart ts) : Apart (t :: ts) := by
  refine ⟨fun hnumber => ?_, ha⟩
  rw [h] at hnumber
  cases hnumber

mutual

theorem apart_tokens : ∀ (v : Json) {ts : List Token}, Marked ts → Apart ts → Apart (v.tokens ++ ts)
  | .null, _, _, ha => apart_mark rfl ha
  | .bool _, _, _, ha => apart_mark rfl ha
  | .number _, _, hm, ha => ⟨fun _ => hm, ha⟩
  | .string _, _, _, ha => apart_mark rfl ha
  | .array items, ts, _, ha => by
    rw [tokens, List.cons_append, List.append_assoc]
    exact apart_mark rfl (apart_tokensOfItems items (marked_cons rfl ts) (apart_mark rfl ha))
  | .object members, ts, _, ha => by
    rw [tokens, List.cons_append, List.append_assoc]
    exact apart_mark rfl (apart_tokensOfMembers members (marked_cons rfl ts) (apart_mark rfl ha))

theorem apart_tokensOfItems : ∀ (vs : List Json) {ts : List Token}, Marked ts → Apart ts →
    Apart (tokensOfItems vs ++ ts)
  | [], _, _, ha => ha
  | [v], _, hm, ha => apart_tokens v hm ha
  | v :: w :: vs, ts, hm, ha => by
    rw [tokensOfItems, List.append_assoc]
    exact apart_tokens v (marked_cons rfl _) (apart_mark rfl (apart_tokensOfItems (w :: vs) hm ha))

theorem apart_tokensOfMembers : ∀ (ms : List (Option String × Json)) {ts : List Token}, Marked ts → Apart ts →
    Apart (tokensOfMembers ms ++ ts)
  | [], _, _, ha => ha
  | [(_, v)], _, hm, ha => apart_mark rfl (apart_mark rfl (apart_tokens v hm ha))
  | (_, v) :: m :: ms, ts, hm, ha => by
    rw [tokensOfMembers, List.cons_append, List.cons_append, List.append_assoc]
    exact apart_mark rfl (apart_mark rfl (apart_tokens v (marked_cons rfl _)
      (apart_mark rfl (apart_tokensOfMembers (m :: ms) hm ha))))

end

mutual

theorem digital_tokens : ∀ v : Json, v.Digital → ∀ t ∈ v.tokens, t.Digital
  | .null, _ | .bool _, _ | .string _, _ => by simp [tokens, Token.Digital]
  | .number n, hv => by simpa [tokens, Token.Digital] using show n.Digital from hv
  | .array items, hv => by
    simpa [tokens, Token.Digital, or_imp, forall_and] using digital_tokensOfItems items hv
  | .object members, hv => by
    simpa [tokens, Token.Digital, or_imp, forall_and] using digital_tokensOfMembers members hv

theorem digital_tokensOfItems : ∀ vs : List Json, DigitalItems vs → ∀ t ∈ tokensOfItems vs, t.Digital
  | [], _ => by simp [tokensOfItems]
  | [v], hv => digital_tokens v hv.1
  | v :: w :: vs, hv => by
    have hfirst := digital_tokens v hv.1
    have hothers := digital_tokensOfItems (w :: vs) hv.2
    rw [tokensOfItems]
    simpa [Token.Digital, or_imp, forall_and] using And.intro hfirst hothers

theorem digital_tokensOfMembers : ∀ ms : List (Option String × Json), DigitalMembers ms →
    ∀ t ∈ tokensOfMembers ms, t.Digital
  | [], _ => by simp [tokensOfMembers]
  | [(_, v)], hv => by
    simpa [tokensOfMembers, Token.Digital] using digital_tokens v hv.1
  | (_, v) :: m :: ms, hv => by
    have hfirst := digital_tokens v hv.1
    have hothers := digital_tokensOfMembers (m :: ms) hv.2
    rw [tokensOfMembers]
    simpa [Token.Digital, or_imp, forall_and] using And.intro hfirst hothers

end

mutual

/-- The compact text is made of the tokens and nothing else. -/
theorem write_eq_flatMap : ∀ v : Json, v.write = v.tokens.flatMap Token.write
  | .null | .number _ | .string _ => by simp [write, tokens, Token.write]
  | .bool b => by cases b <;> rfl
  | .array items => by simp [write, tokens, Token.write, writeItems_eq_flatMap items]
  | .object members => by simp [write, tokens, Token.write, writeMembers_eq_flatMap members]

theorem writeItems_eq_flatMap : ∀ vs : List Json, writeItems vs = (tokensOfItems vs).flatMap Token.write
  | [] => rfl
  | [v] => write_eq_flatMap v
  | v :: w :: vs => by
    simp [writeItems, tokensOfItems, Token.write, write_eq_flatMap v, writeItems_eq_flatMap (w :: vs)]

theorem writeMembers_eq_flatMap : ∀ ms : List (Option String × Json),
    writeMembers ms = (tokensOfMembers ms).flatMap Token.write
  | [] => rfl
  | [(_, v)] => by simp [writeMembers, tokensOfMembers, Token.write, write_eq_flatMap v]
  | (_, v) :: m :: ms => by
    simp [writeMembers, tokensOfMembers, Token.write, write_eq_flatMap v, writeMembers_eq_flatMap (m :: ms)]

end

/-! ## Reading -/

theorem gap_nil : Gap [] := by
  intro c hc
  cases hc

/-- The same blanks may stand in front of every token. -/
theorem spread_flatMap {gap : List Char} (hg : Gap gap) (ts : List Token) :
    Spread ts (ts.flatMap fun t => gap ++ t.write) := by
  induction ts with
  | nil => exact .nil gap_nil
  | cons t ts ih =>
    rw [List.flatMap_cons, List.append_assoc]
    exact .cons hg ih

/-- The compact text is one of the texts of a value, the one without blanks. -/
theorem spread_write (v : Json) : Spread v.tokens v.write := by
  rw [write_eq_flatMap]
  exact spread_flatMap gap_nil v.tokens

/-- A value is read from every text of its tokens, whatever blanks there are. -/
theorem ofString?_of_spread {v : Json} (hv : v.Digital) {cs : List Char} (h : Spread v.tokens cs) :
    ofString? (String.ofList cs) = some v := by
  have hapart : Apart v.tokens := by
    have ha := apart_tokens v marked_nil (show Apart [] from trivial)
    rwa [List.append_nil] at ha
  have hcut : Token.cut cs = some v.tokens := cutFrom_spread h (digital_tokens v hv) hapart []
  have hrun : Reading.run (.value []) v.tokens = some v := by
    have hall := Reading.run_tokens v [] []
    rwa [List.append_nil] at hall
  unfold ofString?
  rw [String.toList_ofList]
  simp only [read?, hcut, ofTokens?, hrun]

end Rollbook.Json
