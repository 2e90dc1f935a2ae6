/-
`absl::Status`, and results that are a status or a value.

- `bind_ok`, `bind_error`: the next step of a function that returns early on an error.
-/
import Mathlib.Tactic

namespace Viduce.Absl

inductive StatusCode where
  | cancelled | unknown | invalidArgument | deadlineExceeded | notFound | alreadyExists | permissionDenied
  | resourceExhausted | failedPrecondition | aborted | outOfRange | unimplemented | internal | unavailable | dataLoss
  | unauthenticated
deriving DecidableEq, Repr

/-- an `absl::Status` that is not OK; gRPC's statuses have the same codes -/
structure Status where
  code : StatusCode
  message : String
deriving DecidableEq, Repr

variable {α β : Type}

theorem bind_ok {x : Except Status α} {a : α} (h : x = .ok a) (f : α → Except Status β) : x >>= f = f a := by
  rw [h]
  rfl

/-- an error of the first step is an error of the whole -/
theorem bind_error {x : Except Status α} (h : ∃ status, x = .error status) (f : α → Except Status β) :
    ∃ status, x >>= f = .error status := by
  obtain ⟨status, hx⟩ := h
  exact ⟨status, by rw [hx]; rfl⟩

end Viduce.Absl
