import Mathlib

namespace Js

/-- The values of the language that JSON can carry, and `undefined`. -/
inductive Value where
  | undefined
  | null
  | boolean (value : Bool)
  -- `none` is not a number, or no finite one.
  | number (value : Option ℚ)
  | string (value : List Char)
  | array (items : List Value)
  | object (members : List (String × Value))

namespace Value

def ofInt (n : Int) : Value := .number (some n)

def truthy : Value → Bool
  | .undefined => false
  | .null => false
  | .boolean b => b
  | .number none => false
  | .number (some q) => q ≠ 0
  | .string s => !s.isEmpty
  | .array _ => true
  | .object _ => true

def get : Value → String → Value
  | .object members, name => (members.lookup name).getD .undefined
  | _, _ => .undefined

def hasOwn : Value → String → Bool
  | .object members, name => (members.lookup name).isSome
  | _, _ => false

def asString : Value → Option (List Char)
  | .string s => some s
  | _ => none

def asArray : Value → Option (List Value)
  | .array items => some items
  | _ => none

def asBoolean : Value → Option Bool
  | .boolean b => some b
  | _ => none

/-- Neither `null` nor an array, of the values whose type is `object`. -/
def isObject : Value → Bool
  | .object _ => true
  | _ => false

def maxSafeInteger : Int := 2 ^ 53 - 1

def safeInteger (n : Int) : Bool := -maxSafeInteger ≤ n && n ≤ maxSafeInteger

/-- The number behind a value that `Number.isSafeInteger` accepts. -/
def asSafeInteger : Value → Option Int
  | .number (some q) => if q.den = 1 ∧ safeInteger q.num then some q.num else none
  | _ => none

def isString (v : Value) (text : List Char) : Bool := v.asString == some text

def isNumber : Value → Int → Bool
  | .number (some q), n => q == n
  | _, _ => false

variable {v : Value} {n : Int} {text : List Char}

@[simp] theorem asString_string (text : List Char) : (Value.string text).asString = some text := rfl

@[simp] theorem asArray_array (items : List Value) : (Value.array items).asArray = some items := rfl

@[simp] theorem asBoolean_boolean (b : Bool) : (Value.boolean b).asBoolean = some b := rfl

theorem asString_eq_some : v.asString = some text ↔ v = .string text := by
  cases v <;> simp [asString]

theorem asSafeInteger_ofInt (safe : safeInteger n) : (ofInt n).asSafeInteger = some n := by
  simp [ofInt, asSafeInteger, safe]

theorem asSafeInteger_eq_some : v.asSafeInteger = some n ↔ v = ofInt n ∧ safeInteger n := by
  constructor
  · intro found
    cases v with
    | number value =>
        cases value with
        | none => simp [asSafeInteger] at found
        | some q =>
            simp only [asSafeInteger, Option.ite_none_right_eq_some, Option.some.injEq] at found
            obtain ⟨⟨whole, safe⟩, rfl⟩ := found
            have same : q = (q.num : ℚ) := (Rat.den_eq_one_iff q).mp whole |>.symm
            exact ⟨by rw [ofInt, ← same], safe⟩
    | _ => simp [asSafeInteger] at found
  · intro ⟨written, safe⟩
    rw [written, asSafeInteger_ofInt safe]

@[simp] theorem isNumber_ofInt : (ofInt n).isNumber n = true := by
  simp [ofInt, isNumber]

end Value

end Js
