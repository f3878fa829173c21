import BinaryStrings.Decimal.Binary64

/-!
# JSON values

Settings files, tool arguments and tool responses are JSON values.  Whole numbers are unbounded and
apart from binary64 numbers.  The members of an object keep their order.
-/

namespace BinaryStrings

/-- A JSON value. -/
inductive Json where
  | null
  | bool (value : Bool)
  | int (value : Int)
  | float (value : Binary64)
  | str (text : String)
  | arr (items : List Json)
  | obj (members : List (String × Json))
  deriving Repr, Inhabited

namespace Json

/-! ## Equality -/

mutual

/-- Whether two values are the same. -/
def same : Json → Json → Bool
  | .null, .null => true
  | .bool a, .bool b => a == b
  | .int a, .int b => a == b
  | .float a, .float b => a == b
  | .str a, .str b => a == b
  | .arr a, .arr b => sameItems a b
  | .obj a, .obj b => sameMembers a b
  | _, _ => false
termination_by structural a => a

/-- Whether two lists hold the same values. -/
def sameItems : List Json → List Json → Bool
  | [], [] => true
  | a :: rest, b :: rest' => same a b && sameItems rest rest'
  | _, _ => false
termination_by structural a => a

/-- Whether two objects have the same members in the same order. -/
def sameMembers : List (String × Json) → List (String × Json) → Bool
  | [], [] => true
  | a :: rest, b :: rest' => sameMember a b && sameMembers rest rest'
  | _, _ => false
termination_by structural a => a

/-- Whether two members have the same name and value. -/
def sameMember : String × Json → String × Json → Bool
  | (name, a), (name', b) => name == name' && same a b
termination_by structural a => a

end

mutual

theorem eq_of_same : ∀ {a b : Json}, same a b = true → a = b
  | .null, b, h => by cases b <;> simp_all [same]
  | .bool _, b, h => by cases b <;> simp_all [same]
  | .int _, b, h => by cases b <;> simp_all [same]
  | .float _, b, h => by cases b <;> simp_all [same]
  | .str _, b, h => by cases b <;> simp_all [same]
  | .arr items, b, h => by
    cases b <;> simp_all [same]
    exact eq_of_sameItems h
  | .obj members, b, h => by
    cases b <;> simp_all [same]
    exact eq_of_sameMembers h

theorem eq_of_sameItems : ∀ {a b : List Json}, sameItems a b = true → a = b
  | [], b, h => by cases b <;> simp_all [sameItems]
  | x :: rest, b, h => by
    cases b with
    | nil => simp [sameItems] at h
    | cons y rest' =>
      simp only [sameItems, Bool.and_eq_true] at h
      rw [eq_of_same h.1, eq_of_sameItems h.2]

theorem eq_of_sameMembers : ∀ {a b : List (String × Json)}, sameMembers a b = true → a = b
  | [], b, h => by cases b <;> simp_all [sameMembers]
  | x :: rest, b, h => by
    cases b with
    | nil => simp [sameMembers] at h
    | cons y rest' =>
      simp only [sameMembers, Bool.and_eq_true] at h
      rw [eq_of_sameMember h.1, eq_of_sameMembers h.2]

theorem eq_of_sameMember : ∀ {a b : String × Json}, sameMember a b = true → a = b
  | (name, x), (name', y), h => by
    simp only [sameMember, Bool.and_eq_true, beq_iff_eq] at h
    rw [h.1, eq_of_same h.2]

end

mutual

theorem same_self : ∀ a : Json, same a a = true
  | .null => by simp [same]
  | .bool _ => by simp [same]
  | .int _ => by simp [same]
  | .float _ => by simp [same]
  | .str _ => by simp [same]
  | .arr items => by simp [same, sameItems_self items]
  | .obj members => by simp [same, sameMembers_self members]

theorem sameItems_self : ∀ a : List Json, sameItems a a = true
  | [] => rfl
  | x :: rest => by simp [sameItems, same_self x, sameItems_self rest]

theorem sameMembers_self : ∀ a : List (String × Json), sameMembers a a = true
  | [] => rfl
  | x :: rest => by simp [sameMembers, sameMember_self x, sameMembers_self rest]

theorem sameMember_self : ∀ a : String × Json, sameMember a a = true
  | (name, x) => by simp [sameMember, same_self x]

end

/-- The comparison decides equality. -/
theorem same_eq_true_iff {a b : Json} : same a b = true ↔ a = b :=
  ⟨eq_of_same, fun h => h ▸ same_self a⟩

instance : DecidableEq Json := fun _ _ => decidable_of_iff _ same_eq_true_iff

/-! ## Nesting -/

mutual

/-- How deep lists and objects are nested in a value. -/
def depth : Json → Nat
  | .arr items => itemsDepth items + 1
  | .obj members => membersDepth members + 1
  | _ => 0
termination_by structural a => a

/-- How deep lists and objects are nested in the items of a list. -/
def itemsDepth : List Json → Nat
  | [] => 0
  | item :: rest => max (depth item) (itemsDepth rest)
termination_by structural a => a

/-- How deep lists and objects are nested in the members of an object. -/
def membersDepth : List (String × Json) → Nat
  | [] => 0
  | member :: rest => max (memberDepth member) (membersDepth rest)
termination_by structural a => a

/-- How deep lists and objects are nested in the value of a member. -/
def memberDepth : String × Json → Nat
  | (_, value) => depth value
termination_by structural a => a

end

/-! ## Members -/

/-- The members of an object, in order. -/
abbrev Members := List (String × Json)

/-- The value of a member. -/
def Members.get? (members : Members) (name : String) : Option Json :=
  members.lookup name

/-- Sets a member: in its place when there is one of this name, else behind the others. -/
def Members.set : Members → String → Json → Members
  | [], name, value => [(name, value)]
  | (known, old) :: rest, name, value =>
    if known = name then (known, value) :: rest else (known, old) :: Members.set rest name value

/-- The members without the one of this name. -/
def Members.erase (members : Members) (name : String) : Members :=
  members.filter fun member => member.1 != name

/-- The names of the members, in order. -/
def Members.names (members : Members) : List String :=
  members.map (·.1)

/-- Whether a value counts as present in a test: no null, false, zero, or empty text, list or
object. -/
def isTruthy : Json → Bool
  | .null => false
  | .bool value => value
  | .int value => value != 0
  | .float (.finite _ mantissa _) => mantissa != 0
  | .float _ => true
  | .str text => !text.isEmpty
  | .arr items => !items.isEmpty
  | .obj members => !members.isEmpty

/-- The whole number that a value stands for; a truth value stands for one or zero. -/
def toInt? : Json → Option Int
  | .int value => some value
  | .bool value => some (if value then 1 else 0)
  | _ => none

end Json

end BinaryStrings
