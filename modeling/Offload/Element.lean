/-!
# Element types

The ten primitive types that a vector lane can hold.

* `Element.bytes`, `Element.bits`  the width of a lane; a lane is a whole number of bytes, and its
  natural alignment is its size;
* `Element.all`                    every type in their fixed order: unsigned, signed, floating
  point, each family from narrow to wide;
* `Element.rank`                   the place in that order, by which types are compared;
* `Element.name`, `ofName?`        the lower-case name and the way back.
-/

namespace Offload

inductive Element where
  | u8 | u16 | u32 | u64
  | i8 | i16 | i32 | i64
  | f32 | f64
  deriving DecidableEq, Repr, Inhabited

namespace Element

def bytes : Element → Nat
  | u8 | i8 => 1
  | u16 | i16 => 2
  | u32 | i32 | f32 => 4
  | u64 | i64 | f64 => 8

def bits (e : Element) : Nat := 8 * e.bytes

theorem bytes_pos (e : Element) : 0 < e.bytes := by cases e <;> decide

theorem bits_pos (e : Element) : 0 < e.bits := by cases e <;> decide

def name : Element → String
  | u8 => "u8"
  | u16 => "u16"
  | u32 => "u32"
  | u64 => "u64"
  | i8 => "i8"
  | i16 => "i16"
  | i32 => "i32"
  | i64 => "i64"
  | f32 => "f32"
  | f64 => "f64"

def all : List Element := [u8, u16, u32, u64, i8, i16, i32, i64, f32, f64]

theorem mem_all (e : Element) : e ∈ all := by cases e <;> decide

theorem nodup_all : all.Nodup := by decide

/-- the position in `all` -/
def rank : Element → Nat
  | u8 => 0
  | u16 => 1
  | u32 => 2
  | u64 => 3
  | i8 => 4
  | i16 => 5
  | i32 => 6
  | i64 => 7
  | f32 => 8
  | f64 => 9

/-- the types that come before `e` -/
def below (e : Element) : List Element := all.filter (·.rank < e.rank)

def isSigned : Element → Bool
  | i8 | i16 | i32 | i64 => true
  | _ => false

def isFloat : Element → Bool
  | f32 | f64 => true
  | _ => false

/-- the type of that name; names are lower case, and nothing else is accepted -/
def ofName? (s : String) : Option Element := all.find? (·.name == s)

theorem ofName?_name (e : Element) : ofName? e.name = some e := by cases e <;> rfl

theorem name_of_ofName? {s : String} {e : Element} (h : ofName? s = some e) : e.name = s := by
  have := List.find?_some h
  simpa using this

end Element

end Offload
