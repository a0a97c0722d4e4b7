import Mathlib.Tactic.Common

/-!
# Fail-stop computations

A simulator stops at a failed `assert` or at a `panic`, and nothing is known of a run
after undefined behaviour.  A computation that may stop is an `Except Fault`; the text of
a fault is the text of the check in the source.  The lemmas below say when such a
computation succeeds, so that proofs peel a successful run into its parts without
unfolding `do` blocks.
-/

namespace Foundation

/-- Why a computation stopped. -/
inductive Fault where
  | assertion (text : String)
  | panic (text : String)
  | undefined (text : String)
  deriving DecidableEq, Repr

/-- A computation that succeeds with a value or stops at a failed check. -/
abbrev Checked (α : Type) := Except Fault α

/-- Continue only if the condition holds. -/
def assertThat (condition : Prop) [Decidable condition] (text : String) : Checked Unit :=
  if condition then .ok () else .error (.assertion text)

/-- Stop unconditionally. -/
def panicWith {α : Type} (text : String) : Checked α :=
  .error (.panic text)

/-- Stop if the condition holds. -/
def panicIf (condition : Prop) [Decidable condition] (text : String) : Checked Unit :=
  if condition then .error (.panic text) else .ok ()

section

variable {α β : Type}

variable {condition : Prop} {text : String}

/-- An assertion succeeds exactly when it holds. -/
@[simp] theorem assertThat_eq_ok [Decidable condition] {result : Unit} :
    assertThat condition text = .ok result ↔ condition := by
  unfold assertThat
  split <;> simp_all

/-- An assertion that holds succeeds. -/
theorem assertThat_of [Decidable condition] (holds : condition) :
    assertThat condition text = .ok () :=
  assertThat_eq_ok.mpr holds

/-- A panic check succeeds exactly when its condition fails. -/
@[simp] theorem panicIf_eq_ok [Decidable condition] {result : Unit} :
    panicIf condition text = .ok result ↔ ¬condition := by
  unfold panicIf
  split <;> simp_all

/-- A panic returns no value. -/
@[simp] theorem panicWith_ne_ok {result : α} : (panicWith text : Checked α) ≠ .ok result := by
  simp [panicWith]

variable {value : α}

/-- A returned value is the result. -/
@[simp] theorem pure_eq_ok {result : α} :
    (pure value : Checked α) = .ok result ↔ value = result := by
  simp [pure, Except.pure]

variable {first : Checked α} {next : α → Checked β}

/-- A sequence succeeds exactly when both parts do. -/
@[simp] theorem bind_eq_ok {result : β} :
    (first >>= next) = .ok result ↔ ∃ value, first = .ok value ∧ next value = .ok result := by
  cases first <;> simp [bind, Except.bind]

/-- What holds of the result of a sequence holds of the result of its second part. -/
theorem exists_bind_ok {P : β → Prop} : (∃ result, (first >>= next) = .ok result ∧ P result) ↔
    ∃ value, first = .ok value ∧ ∃ result, next value = .ok result ∧ P result := by
  cases first <;> simp [bind, Except.bind]

/-- A success goes on with its value. -/
@[simp] theorem ok_bind : ((.ok value : Checked α) >>= next) = next value := rfl

/-- A fault ends the sequence. -/
@[simp] theorem error_bind {fault : Fault} :
    ((.error fault : Checked α) >>= next) = .error fault := rfl

/-- A map succeeds exactly when what it maps does. -/
@[simp] theorem map_eq_ok {f : α → β} {result : β} :
    (f <$> first) = .ok result ↔ ∃ value, first = .ok value ∧ f value = result := by
  cases first <;> simp [Functor.map, Except.map]

/-- What a successful run went through: the steps of its `do` block, the assertions among them and
the result. -/
theorem run_eq_ok : (∀ {α β : Type} {first : Checked α} {next : α → Checked β} {result : β},
      (first >>= next) = .ok result ↔ ∃ value, first = .ok value ∧ next value = .ok result) ∧
    (∀ {α : Type} {value result : α}, (pure value : Checked α) = .ok result ↔ value = result) ∧
    (∀ {condition : Prop} [Decidable condition] {text : String} {result : Unit},
      assertThat condition text = .ok result ↔ condition) ∧
    ∀ {holds : Prop}, (∃ _ : Unit, holds) ↔ holds :=
  ⟨bind_eq_ok, pure_eq_ok, assertThat_eq_ok, exists_const Unit⟩

/-- A test that returns early or goes on. -/
theorem early_return {test : Bool} {result : α} {rest : Checked α}
    (ran : (if test then pure value else rest) = .ok result) :
    (test = true ∧ value = result) ∨ (test = false ∧ rest = .ok result) := by
  cases test with
  | true => exact .inl ⟨rfl, pure_eq_ok.mp ran⟩
  | false => exact .inr ⟨rfl, ran⟩

/-- Whether a computation succeeds with a value that has a property is decided by running it. -/
instance decidableRuns {result : Checked α} {P : α → Prop} [DecidablePred P] :
    Decidable (∃ value, result = .ok value ∧ P value) :=
  match result with
  | .ok value => decidable_of_iff (P value) (by simp)
  | .error _ => isFalse (by simp)

instance decidableSucceeds {result : Checked α} : Decidable (∃ value, result = .ok value) :=
  decidable_of_iff (∃ value, result = .ok value ∧ True) (by simp)

/-- The same for one part of the value. -/
instance decidableAnswers [DecidableEq α] {result : Checked (α × β)} {answer : α} {P : β → Prop}
    [DecidablePred P] : Decidable (∃ value, result = .ok (answer, value) ∧ P value) :=
  match result with
  | .ok (other, value) => decidable_of_iff (other = answer ∧ P value) (by simp [and_assoc])
  | .error _ => isFalse (by simp)

instance decidableFails {result : Checked α} {fault : Fault} : Decidable (result = .error fault) :=
  match result with
  | .ok _ => isFalse (by simp)
  | .error other => decidable_of_iff (other = fault) (by simp)

/-- Whether a computation succeeds with a value that meets a check. -/
def succeedsWith (result : Checked α) (check : α → Bool) : Bool :=
  match result with
  | .ok value => check value
  | .error _ => false

/-- The boolean test says that a value is returned and passes. -/
theorem succeedsWith_iff {result : Checked α} {check : α → Bool} :
    succeedsWith result check = true ↔ ∃ value, result = .ok value ∧ check value = true := by
  cases result <;> simp [succeedsWith]

/-- The computation does not stop at this fault. -/
def Avoids (fault : Fault) (result : Checked α) : Prop :=
  result ≠ .error fault

variable {fault other : Fault} {text : String}

/-- A success is no fault. -/
@[simp] theorem avoids_ok : Avoids fault (.ok value) := by
  simp [Avoids]

/-- A returned value is no fault. -/
@[simp] theorem avoids_pure : Avoids fault (pure value) :=
  avoids_ok

/-- A fault avoids every other one. -/
@[simp] theorem avoids_error : Avoids fault (.error other : Checked α) ↔ other ≠ fault := by
  simp [Avoids]

/-- A panic avoids every fault but itself. -/
@[simp] theorem avoids_panicWith :
    Avoids fault (panicWith text : Checked α) ↔ .panic text ≠ fault :=
  avoids_error

/-- An assertion fails with its own text only. -/
@[simp] theorem avoids_assertThat [Decidable condition] :
    Avoids fault (assertThat condition text) ↔ (.assertion text = fault → condition) := by
  unfold assertThat
  split <;> simp_all

/-- A panic check fails with its own text only. -/
@[simp] theorem avoids_panicIf [Decidable condition] :
    Avoids fault (panicIf condition text) ↔ (.panic text = fault → ¬condition) := by
  unfold panicIf
  split <;> simp_all

/-- A sequence stops at a fault only if one of its parts does. -/
@[simp] theorem avoids_bind : Avoids fault (first >>= next) ↔
      Avoids fault first ∧ ∀ value, first = .ok value → Avoids fault (next value) := by
  cases first <;> simp [Avoids, bind, Except.bind]

/-- A map fails as what it maps does. -/
@[simp] theorem avoids_map {f : α → β} : Avoids fault (f <$> first) ↔ Avoids fault first := by
  cases first <;> simp [Avoids, Functor.map, Except.map]

/-- A branch avoids a fault when the side taken does. -/
@[simp] theorem avoids_ite [Decidable condition] {second : Checked α} :
    Avoids fault (if condition then first else second) ↔
      (condition → Avoids fault first) ∧ (¬ condition → Avoids fault second) := by
  split <;> simp_all

/-- A fold avoids a fault when each of its steps does. -/
theorem avoids_foldlM {step : β → α → Checked β}
    (avoids : ∀ state item, Avoids fault (step state item)) :
    ∀ {items : List α} {state : β}, Avoids fault (items.foldlM step state)
  | [], _ => avoids_pure
  | item :: rest, state => by
    rw [List.foldlM_cons, avoids_bind]
    exact ⟨avoids state item, fun _ _ => avoids_foldlM avoids⟩

end

end Foundation
