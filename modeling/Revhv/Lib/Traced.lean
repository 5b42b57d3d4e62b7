/-!
# `Revhv.Lib.Traced`: computations that record what they do

A computation with a list of events beside its result. It may stop
without a result, and what it did until then stays recorded.

* `each_bind`: what all events of a sequence have, by its parts.
* `safeIff_bind`: a condition that decides whether a computation is safe
  goes from its parts to the whole, so that a proof about a longer program
  follows it statement by statement.
-/

set_option autoImplicit false

namespace Revhv.Lib

/-- The events of a computation and its result, if it comes to one. -/
structure Traced (ε α : Type) where
  events : List ε
  result : Option α

namespace Traced

variable {ε α β : Type}

/-- To do nothing. -/
protected def pure (a : α) : Traced ε α := ⟨[], some a⟩

/-- One computation after the other. -/
protected def bind (x : Traced ε α) (f : α → Traced ε β) : Traced ε β :=
  match x.result with
  | none => ⟨x.events, none⟩
  | some a => ⟨x.events ++ (f a).events, (f a).result⟩

/-- Programs follow each other, and their events are appended. After a
stop there are no further ones. -/
instance : Monad (Traced ε) where
  pure := Traced.pure
  bind := Traced.bind

/-- To record an event. -/
def emit (e : ε) : Traced ε Unit := ⟨[e], some ()⟩

/-- To stop. -/
def stop : Traced ε α := ⟨[], none⟩

/-- Every event has the property. -/
def Each (P : ε → Prop) (x : Traced ε α) : Prop := ∀ e ∈ x.events, P e

/-- A trace is a list, so its events can be checked one by one. -/
instance (P : ε → Prop) [DecidablePred P] (x : Traced ε α) : Decidable (x.Each P) :=
  inferInstanceAs (Decidable (∀ e ∈ _, P e))

/-! ### Results -/

/-- A value is its own result. -/
@[simp] theorem result_pure (a : α) : (pure a : Traced ε α).result = some a := rfl

/-- An event has a result that says nothing. -/
@[simp] theorem result_emit (e : ε) : (emit e).result = some () := rfl

/-- A stop has no result. -/
@[simp] theorem result_stop : (stop : Traced ε α).result = none := rfl

/-- The second program has the last word, unless the first one stopped. -/
theorem result_bind (x : Traced ε α) (f : α → Traced ε β) :
    (x >>= f).result = x.result.bind fun a => (f a).result := by
  show (Traced.bind x f).result = _
  unfold Traced.bind
  cases h : x.result with
  | none => rfl
  | some a => rfl

/-! ### Events -/

section Events

variable {P Q : ε → Prop}

/-- A value comes without events. -/
@[simp] theorem each_pure (a : α) : (pure a : Traced ε α).Each P ↔ True :=
  ⟨fun _ => trivial, fun _ _ he => nomatch he⟩

/-- An event is the only one of its program. -/
@[simp] theorem each_emit (e : ε) : (emit e).Each P ↔ P e :=
  ⟨fun h => h e (List.mem_singleton_self e), fun h _ he => List.mem_singleton.mp he ▸ h⟩

/-- A stop is no event. -/
@[simp] theorem each_stop : (stop : Traced ε α).Each P ↔ True :=
  ⟨fun _ => trivial, fun _ _ he => nomatch he⟩

/-- The second part takes place with the result of the first. -/
theorem each_bind (x : Traced ε α) (f : α → Traced ε β) :
    (x >>= f).Each P ↔ x.Each P ∧ ∀ a, x.result = some a → (f a).Each P := by
  show (Traced.bind x f).Each P ↔ _
  unfold Traced.bind
  -- Where `x` ends the run, `f` records nothing.
  cases h : x.result with
  | none => exact ⟨fun hx => ⟨hx, fun _ ha => nomatch ha⟩, fun hx => hx.1⟩
  | some a =>
      constructor
      · intro hx
        refine ⟨fun e he => hx e (List.mem_append_left _ he), fun b hb e he => ?_⟩
        obtain rfl := Option.some.inj hb
        exact hx e (List.mem_append_right _ he)
      · intro hx e he
        rcases List.mem_append.mp he with he | he
        · exact hx.1 e he
        · exact hx.2 a rfl e he

/-- All events have `P` and there is a result, exactly if all events
have `Q`. -/
def SafeIff (P Q : ε → Prop) (x : Traced ε α) : Prop :=
  x.Each P ∧ x.result.isSome ↔ x.Each Q

/-- A value is safe under any condition. -/
theorem safeIff_pure (a : α) : (pure a : Traced ε α).SafeIff P Q := by
  rw [SafeIff, each_pure, each_pure]
  exact ⟨fun _ => trivial, fun _ => ⟨trivial, rfl⟩⟩

/-- Two programs one after the other are safe under one condition, if
the first one is and the second one is for every result of the first. -/
theorem safeIff_bind {x : Traced ε α} {f : α → Traced ε β} (hx : x.SafeIff P Q)
    (hf : ∀ a, x.result = some a → (f a).SafeIff P Q) : (x >>= f).SafeIff P Q := by
  rw [SafeIff, each_bind, each_bind, result_bind]
  cases hr : x.result with
  | none =>
      -- Neither side holds: the first part has no result, hence an event without `Q`.
      constructor
      · intro h
        cases h.2
      · intro h
        have := (hx.mpr h.1).2
        rw [hr] at this
        cases this
  | some a =>
      have hfa := hf a hr
      have hsome : x.result.isSome := by rw [hr]; rfl
      constructor
      · rintro ⟨⟨h, ha⟩, hresult⟩
        refine ⟨hx.mp ⟨h, hsome⟩, fun b hb => ?_⟩
        obtain rfl := Option.some.inj hb
        exact hfa.mp ⟨ha a rfl, hresult⟩
      · rintro ⟨h, ha⟩
        have hrest := hfa.mpr (ha a rfl)
        refine ⟨⟨(hx.mpr h).1, fun b hb => ?_⟩, hrest.2⟩
        obtain rfl := Option.some.inj hb
        exact hrest.1

end Events

end Traced

end Revhv.Lib
