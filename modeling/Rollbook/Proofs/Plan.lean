import Rollbook.Plan
/-
  Rollbook.Proofs.Plan — what a plan may come to, whoever answers it.

  A plan takes in answers to its questions and readings of the clock, and nothing
  else has a part in how it goes on. `Leads p is p'` says that `p` goes on as `p'`
  once it has taken in `is`; nobody is named who answered, so what is shown of it
  holds for every backend, and also when others act between two questions.

  Two ends of such a way matter: a plan has an answer (`Yields`), or it is about to
  ask something (`Asks`). `yields_bind` and `asks_bind` take the way of a composed
  plan apart, so each plan of the service is walked through once, in a lemma of its
  own.
-/

namespace Rollbook

/-- What a plan takes in. -/
inductive Input where
  | answer (q : Query) (a : q.Answer)
  | time (t : Instant)

namespace Plan

variable {α β : Type}

/-- `p` goes on as the last plan once it has taken in the inputs. -/
inductive Leads : Plan α → List Input → Plan α → Prop
  | here (p : Plan α) : Leads p [] p
  | ask {q : Query} {next : q.Answer → Plan α} {a : q.Answer} {is : List Input} {p : Plan α} :
      Leads (next a) is p → Leads (.ask q next) (.answer q a :: is) p
  | clock {next : Instant → Plan α} {t : Instant} {is : List Input} {p : Plan α} :
      Leads (next t) is p → Leads (.clock next) (.time t :: is) p
  | note {n : Notice} {next : Plan α} {is : List Input} {p : Plan α} :
      Leads next is p → Leads (.note n next) is p

/-- With these inputs the plan ends with the answer `a`. -/
def Yields (p : Plan α) (is : List Input) (a : α) : Prop := Leads p is (.done (.ok a))

/-- With these inputs the plan comes to ask `q`. -/
def Asks (p : Plan α) (is : List Input) (q : Query) : Prop := ∃ next, Leads p is (.ask q next)

theorem leads_append {p p' p'' : Plan α} {is js : List Input} (h : Leads p is p')
    (h' : Leads p' js p'') : Leads p (is ++ js) p'' := by
  induction h with
  | here => exact h'
  | ask _ ih => exact .ask (ih h')
  | clock _ ih => exact .clock (ih h')
  | note _ ih => exact .note (ih h')

/-! ## Composed plans -/

theorem leads_bind_left {p p' : Plan α} {is : List Input} (h : Leads p is p') (f : α → Plan β) :
    Leads (p >>= f) is (p' >>= f) := by
  induction h with
  | here p => exact .here _
  | ask _ ih => exact .ask ih
  | clock _ ih => exact .clock ih
  | note _ ih => exact .note ih

/-- A composed plan is still at its first part, or that part has yielded. -/
theorem leads_bind {p : Plan α} {f : α → Plan β} {is : List Input} {p'' : Plan β}
    (h : Leads (p >>= f) is p'') :
    (∃ p', Leads p is p' ∧ (∀ a, p' ≠ .done (.ok a)) ∧ p'' = (p' >>= f)) ∨
      ∃ a is₁ is₂, is = is₁ ++ is₂ ∧ Yields p is₁ a ∧ Leads (f a) is₂ p'' := by
  induction p generalizing is with
  | done r =>
    cases r with
    | ok a => exact Or.inr ⟨a, [], is, rfl, .here _, h⟩
    | error e =>
      cases h with
      | here => exact Or.inl ⟨_, .here _, (fun a ha => by cases ha), rfl⟩
  | ask q next ih =>
    cases h with
    | here => exact Or.inl ⟨_, .here _, (fun a ha => by cases ha), rfl⟩
    | @ask _ _ a is _ h =>
      rcases ih a h with ⟨p', hp, hn, rfl⟩ | ⟨b, is₁, is₂, rfl, hy, hl⟩
      · exact Or.inl ⟨p', .ask hp, hn, rfl⟩
      · exact Or.inr ⟨b, _, is₂, rfl, .ask hy, hl⟩
  | clock next ih =>
    cases h with
    | here => exact Or.inl ⟨_, .here _, (fun a ha => by cases ha), rfl⟩
    | @clock _ t is _ h =>
      rcases ih t h with ⟨p', hp, hn, rfl⟩ | ⟨b, is₁, is₂, rfl, hy, hl⟩
      · exact Or.inl ⟨p', .clock hp, hn, rfl⟩
      · exact Or.inr ⟨b, _, is₂, rfl, .clock hy, hl⟩
  | note n next ih =>
    cases h with
    | here => exact Or.inl ⟨_, .here _, (fun a ha => by cases ha), rfl⟩
    | note h =>
      rcases ih h with ⟨p', hp, hn, rfl⟩ | ⟨b, is₁, is₂, rfl, hy, hl⟩
      · exact Or.inl ⟨p', .note hp, hn, rfl⟩
      · exact Or.inr ⟨b, is₁, is₂, rfl, .note hy, hl⟩

theorem yields_bind {p : Plan α} {f : α → Plan β} {is : List Input} {b : β} :
    Yields (p >>= f) is b ↔
      ∃ a is₁ is₂, is = is₁ ++ is₂ ∧ Yields p is₁ a ∧ Yields (f a) is₂ b := by
  constructor
  · intro h
    rcases leads_bind h with ⟨p', _, hn, he⟩ | h
    · cases p' with
      | done r =>
        cases r with
        | ok a => exact absurd rfl (hn a)
        | error e => cases he
      | ask | clock | note => cases he
    · exact h
  · rintro ⟨a, is₁, is₂, rfl, hp, hf⟩
    exact leads_append (leads_bind_left hp f) hf

theorem asks_bind {p : Plan α} {f : α → Plan β} {is : List Input} {q : Query} :
    Asks (p >>= f) is q ↔
      Asks p is q ∨ ∃ a is₁ is₂, is = is₁ ++ is₂ ∧ Yields p is₁ a ∧ Asks (f a) is₂ q := by
  constructor
  · rintro ⟨next, h⟩
    rcases leads_bind h with ⟨p', hp, hn, he⟩ | ⟨a, is₁, is₂, rfl, hy, hl⟩
    · left
      cases p' with
      | done r =>
        cases r with
        | ok a => exact absurd rfl (hn a)
        | error e => cases he
      | ask q' next' => cases he; exact ⟨next', hp⟩
      | clock | note => cases he
    · exact Or.inr ⟨a, is₁, is₂, rfl, hy, next, hl⟩
  · rintro (⟨next, h⟩ | ⟨a, is₁, is₂, rfl, hp, next, hf⟩)
    · exact ⟨fun a => next a >>= f, leads_bind_left h f⟩
    · exact ⟨next, leads_append (leads_bind_left hp f) hf⟩

/-! ## Single steps -/

@[simp] theorem yields_pure {a b : α} {is : List Input} :
    Yields (pure a) is b ↔ is = [] ∧ b = a := by
  constructor
  · intro h; cases h; exact ⟨rfl, rfl⟩
  · rintro ⟨rfl, rfl⟩; exact .here _

@[simp] theorem not_yields_fail {e : Failure} {is : List Input} {a : α} :
    ¬ Yields (fail e) is a := by
  intro h; cases h

@[simp] theorem yields_lift {r : Except Failure α} {is : List Input} {a : α} :
    Yields (lift r) is a ↔ is = [] ∧ r = .ok a := by
  constructor
  · intro h; cases h; exact ⟨rfl, rfl⟩
  · rintro ⟨rfl, rfl⟩; exact .here _

@[simp] theorem yields_now {is : List Input} {t : Instant} :
    Yields now is t ↔ is = [.time t] := by
  constructor
  · intro h
    cases h with
    | clock h => cases h; rfl
  · rintro rfl; exact .clock (.here _)

@[simp] theorem yields_log {n : Notice} {is : List Input} {u : Unit} :
    Yields (log n) is u ↔ is = [] := by
  constructor
  · intro h
    cases h with
    | note h => cases h; rfl
  · rintro rfl; exact .note (.here _)

theorem yields_query {q : Query} {is : List Input} {a : q.Answer} :
    Yields (query q) is a ↔ is = [.answer q a] := by
  constructor
  · intro h
    cases h with
    | ask h => cases h; rfl
  · rintro rfl; exact .ask (.here _)

@[simp] theorem not_asks_pure {a : α} {is : List Input} {q : Query} : ¬ Asks (pure a) is q := by
  rintro ⟨_, h⟩; cases h

@[simp] theorem not_asks_fail {e : Failure} {is : List Input} {q : Query} :
    ¬ Asks (fail e : Plan α) is q := by
  rintro ⟨_, h⟩; cases h

@[simp] theorem not_asks_lift {r : Except Failure α} {is : List Input} {q : Query} :
    ¬ Asks (lift r) is q := by
  rintro ⟨_, h⟩; cases h

@[simp] theorem not_asks_now {is : List Input} {q : Query} : ¬ Asks now is q := by
  rintro ⟨_, h⟩
  cases h with
  | clock h => cases h

@[simp] theorem not_asks_log {n : Notice} {is : List Input} {q : Query} : ¬ Asks (log n) is q := by
  rintro ⟨_, h⟩
  cases h with
  | note h => cases h

theorem asks_query {q q' : Query} {is : List Input} : Asks (query q) is q' ↔ is = [] ∧ q' = q := by
  constructor
  · rintro ⟨_, h⟩
    cases h with
    | here => exact ⟨rfl, rfl⟩
    | ask h => cases h
  · rintro ⟨rfl, rfl⟩; exact ⟨_, .here _⟩

end Plan

end Rollbook
