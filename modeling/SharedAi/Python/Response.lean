import SharedAi.Control.Calls
import SharedAi.Python.Exn

/-!
# Responses, and what is read out of them

* `HttpResponse`, `raiseForStatus` — a response of `httpx`;
* `hasItem`, `subscript`, `getFirst` — `key in value`, `value[key]` and `value[0]`, for a value of `response.json()`;
* `subscript_eq_ok` — where an item is found.
-/

namespace SharedAi.Python

open SharedAi.Control SharedAi.Text

/-- A response, with what `response.json()` gives. -/
structure HttpResponse where
  statusCode : ℕ
  json : Except Exn PyVal

/-- `response.raise_for_status()`. -/
def HttpResponse.raiseForStatus (r : HttpResponse) : Except Exn Unit :=
  ensure (200 ≤ r.statusCode ∧ r.statusCode < 300) (.exception "HTTPStatusError")

/-- `key in value`. -/
def hasItem (key : String) : PyVal → Except Exn Bool
  | .dict ms | .proxy ms => .ok (PyVal.get? ms key).isSome
  | .list vs | .tuple vs => .ok (vs.any fun
    | .str s => s == str key
    | _ => false)
  | .str s => .ok (decide (str key <:+: s))
  | _ => .error .typeError

/-- `value[key]`. -/
def subscript (key : String) : PyVal → Except Exn PyVal
  | .dict ms | .proxy ms =>
    match PyVal.get? ms key with
    | some v => .ok v
    | none => .error (.exception "KeyError")
  | _ => .error .typeError

/-- `value[0]`; the keys of an object are strings. -/
def getFirst : PyVal → Except Exn PyVal
  | .list (v :: _) | .tuple (v :: _) => .ok v
  | .str (c :: _) => .ok (.str [c])
  | .bytes (b :: _) => .ok (.int b.toNat)
  | .list [] | .tuple [] | .str [] | .bytes [] => .error (.exception "IndexError")
  | .dict _ | .proxy _ => .error (.exception "KeyError")
  | _ => .error .typeError

def members : PyVal → Option (List (PyKey × PyVal))
  | .dict ms | .proxy ms => some ms
  | _ => none

section Read

variable {key : String} {v w : PyVal} {ms : List (PyKey × PyVal)}

theorem subscript_eq_ok : subscript key v = .ok w ↔ ∃ ms, members v = some ms ∧ PyVal.get? ms key = some w := by
  have hmapping : ∀ ms : List (PyKey × PyVal), (match PyVal.get? ms key with
      | some v => Except.ok v
      | none => .error (Exn.exception "KeyError")) = .ok w ↔ PyVal.get? ms key = some w := by
    intro ms
    cases PyVal.get? ms key <;> simp
  cases v <;> simp [subscript, members, hmapping]

/-- A mapping has the items that can be read out of it. -/
theorem hasItem_of_members (h : members v = some ms) : hasItem key v = .ok (PyVal.get? ms key).isSome := by
  cases v <;> cases h <;> rfl

/-- What may go wrong in reading a value. -/
def ReadError (e : Exn) : Prop := e = .typeError ∨ e = .exception "KeyError" ∨ e = .exception "IndexError"

theorem hasItem_raisesIn : RaisesIn ReadError (hasItem key v) := by
  unfold hasItem
  split
  all_goals first | exact raisesIn_ok _ | exact raisesIn_error.2 (.inl rfl)

theorem subscript_raisesIn : RaisesIn ReadError (subscript key v) := by
  unfold subscript
  split
  · split
    · exact raisesIn_ok _
    · exact raisesIn_error.2 (.inr (.inl rfl))
  · split
    · exact raisesIn_ok _
    · exact raisesIn_error.2 (.inr (.inl rfl))
  · exact raisesIn_error.2 (.inl rfl)

theorem getFirst_raisesIn : RaisesIn ReadError (getFirst v) := by
  unfold getFirst
  split
  all_goals first
    | exact raisesIn_ok _
    | exact raisesIn_error.2 (.inl rfl)
    | exact raisesIn_error.2 (.inr (.inl rfl))
    | exact raisesIn_error.2 (.inr (.inr rfl))

end Read

end SharedAi.Python
