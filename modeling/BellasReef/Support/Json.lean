import Mathlib.Data.Rat.Defs

/-!
# Support — Json

The values that Python's `json.loads` returns, over a type `σ` of texts, and what it raises.
-/

namespace BellasReef.Support

/-- Python's `bytes`. -/
abbrev Bytes := List UInt8

/-- What `json.loads` raises. -/
inductive LoadsErrorKind where
  | jsonDecodeError
  | unicodeDecodeError
  | recursionError
  deriving DecidableEq

/-- An exception of `json.loads`, and its text. -/
structure LoadsError where
  kind : LoadsErrorKind
  text : String
  deriving DecidableEq

/-- A value that `json.loads` returns. -/
inductive Json (σ : Type) where
  | null
  | bool (b : Bool)
  | int (n : ℤ)
  | float (x : ℚ)
  /-- `NaN` and the two infinities, which RFC 8259 does not have. -/
  | nonFinite
  | str (s : σ)
  | list (xs : List (Json σ))
  | dict (fields : List (σ × Json σ))

namespace Json

variable {σ : Type}

/-- `== n`, as Python compares numbers: a boolean is 0 or 1. -/
def eqInt (n : ℤ) : Json σ → Bool
  | int m => m = n
  | float x => x = n
  | bool b => (if b then 1 else 0) = n
  | _ => false

mutual

/-- Its numbers are finite, and every text in it, keys included, is one of `p`. -/
def portable (p : σ → Bool) : Json σ → Bool
  | null | bool _ | int _ | float _ => true
  | nonFinite => false
  | str s => p s
  | list xs => portableList p xs
  | dict fields => portableFields p fields

/-- Each value of a list is portable. -/
def portableList (p : σ → Bool) : List (Json σ) → Bool
  | [] => true
  | x :: xs => x.portable p && portableList p xs

/-- Each key is one of `p`, and each value is portable. -/
def portableFields (p : σ → Bool) : List (σ × Json σ) → Bool
  | [] => true
  | (k, x) :: fields => p k && x.portable p && portableFields p fields

end

end Json

end BellasReef.Support
