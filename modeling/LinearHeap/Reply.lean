import LinearHeap.Fault
import LinearHeap.Record

/-!
# Replies

A request ends in one of three ways: it is served, it is refused, or it breaks off with a fault. The
reply joins that outcome with the state that the request left and the records that it wrote.
-/

set_option autoImplicit false
set_option relaxedAutoImplicit false

namespace LinearHeap

/-- What became of a request. -/
inductive Outcome (ε α : Type) where
  | ok (value : α)
  | refused (refusal : ε)
  | fault (cause : Fault)
  deriving DecidableEq, Repr

/-- The outcome of a request, the state after it, and what it wrote into the journal. -/
structure Reply (σ ε α : Type) where
  outcome : Outcome ε α
  state : σ
  journal : List Record
  deriving DecidableEq, Repr

namespace Reply

variable {σ τ ε α : Type}

/-- The same reply, told of another state. -/
def withState (reply : Reply σ ε α) (state : τ) : Reply τ ε α :=
  ⟨reply.outcome, state, reply.journal⟩

/-- The same reply with records written before it. -/
def after (reply : Reply σ ε α) (earlier : List Record) : Reply σ ε α :=
  ⟨reply.outcome, reply.state, earlier ++ reply.journal⟩

@[simp] theorem outcome_withState (reply : Reply σ ε α) (state : τ) :
    (reply.withState state).outcome = reply.outcome := rfl

@[simp] theorem state_withState (reply : Reply σ ε α) (state : τ) :
    (reply.withState state).state = state := rfl

@[simp] theorem outcome_after (reply : Reply σ ε α) (earlier : List Record) :
    (reply.after earlier).outcome = reply.outcome := rfl

@[simp] theorem state_after (reply : Reply σ ε α) (earlier : List Record) :
    (reply.after earlier).state = reply.state := rfl

@[simp] theorem journal_after (reply : Reply σ ε α) (earlier : List Record) :
    (reply.after earlier).journal = earlier ++ reply.journal := rfl

end Reply

end LinearHeap
