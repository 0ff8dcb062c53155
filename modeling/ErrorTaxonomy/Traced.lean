import ErrorTaxonomy.Journal

/-!
# Computations with a journal

A traced computation ends in a value or an error and leaves a journal in either
case.  Running one computation after another appends their journals; an error
ends the sequence, and the journal written before it stays.  The outcome of a
sequence is the sequence of the outcomes, so the journal never decides anything.
-/

namespace ErrorTaxonomy

structure Traced (ε α : Type) where
  journal : List JournalEntry
  outcome : Except ε α

namespace Traced

variable {ε ε' α β : Type}

def pure (value : α) : Traced ε α where
  journal := []
  outcome := .ok value

def fail (error : ε) : Traced ε α where
  journal := []
  outcome := .error error

def ofExcept (outcome : Except ε α) : Traced ε α where
  journal := []
  outcome

/-- Writes one entry and goes on. -/
def note (entry : JournalEntry) : Traced ε Unit where
  journal := [entry]
  outcome := .ok ()

def bind (first : Traced ε α) (next : α → Traced ε β) : Traced ε β :=
  match first.outcome with
  | .error error => { journal := first.journal, outcome := .error error }
  | .ok value =>
      { journal := first.journal ++ (next value).journal
        outcome := (next value).outcome }

/-- Goes on with a computation that may have no end; then the whole has none. -/
def thenMaybe (first : Traced ε α) (next : α → Option (Traced ε β)) :
    Option (Traced ε β) :=
  match first.outcome with
  | .error error => some { journal := first.journal, outcome := .error error }
  | .ok value =>
      (next value).map fun rest =>
        { journal := first.journal ++ rest.journal
          outcome := rest.outcome }

instance : Monad (Traced ε) where
  pure := Traced.pure
  bind := Traced.bind

def mapError (f : ε → ε') (computation : Traced ε α) : Traced ε' α where
  journal := computation.journal
  outcome := computation.outcome.mapError f

@[simp] theorem outcome_pure (value : α) :
    (Pure.pure value : Traced ε α).outcome = .ok value := rfl

@[simp] theorem outcome_fail (error : ε) :
    (fail error : Traced ε α).outcome = .error error := rfl

@[simp] theorem outcome_ofExcept (outcome : Except ε α) :
    (ofExcept outcome).outcome = outcome := rfl

@[simp] theorem outcome_note (entry : JournalEntry) :
    (note entry : Traced ε Unit).outcome = .ok () := rfl

@[simp] theorem outcome_mapError (f : ε → ε') (computation : Traced ε α) :
    (computation.mapError f).outcome = computation.outcome.mapError f := rfl

@[simp] theorem outcome_bind (first : Traced ε α) (next : α → Traced ε β) :
    (first >>= next).outcome =
      (first.outcome >>= fun value => (next value).outcome) := by
  change (Traced.bind first next).outcome = _
  unfold Traced.bind
  cases first.outcome <;> rfl

theorem thenMaybe_of_error {first : Traced ε α} {error : ε}
    (h : first.outcome = .error error) (next : α → Option (Traced ε β)) :
    first.thenMaybe next = some { journal := first.journal, outcome := .error error } := by
  simp only [thenMaybe, h]

theorem thenMaybe_of_ok {first : Traced ε α} {value : α} {rest : Traced ε β}
    {next : α → Option (Traced ε β)} (h : first.outcome = .ok value)
    (hnext : next value = some rest) :
    first.thenMaybe next =
      some { journal := first.journal ++ rest.journal, outcome := rest.outcome } := by
  simp only [thenMaybe, h, hnext, Option.map_some]

theorem journal_bind_of_ok {first : Traced ε α} {value : α}
    (h : first.outcome = .ok value) (next : α → Traced ε β) :
    (first >>= next).journal = first.journal ++ (next value).journal := by
  change (Traced.bind first next).journal = _
  simp only [Traced.bind, h]

end Traced

end ErrorTaxonomy
