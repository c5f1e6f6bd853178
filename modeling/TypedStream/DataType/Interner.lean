import TypedStream.Failure

namespace TypedStream

/-- An instance: a primitive type, or the place of a composite one among those interned so far. -/
inductive Instance where
  | table (type : DataType)
  | entry (index : Nat)
  deriving BEq

/-- A composite type with the instances of its direct components. -/
structure Entry where
  type : DataType
  parts : List Instance

/-- The types interned so far, first come first. Lookups compare only types whose texts have the
same hash. -/
structure Interner where
  hash : Text → UInt64
  entries : List Entry := []

namespace Interner

def size (self : Interner) : Nat := self.entries.length

def find? (self : Interner) (t : DataType) : Option Nat :=
  self.entries.findIdx? fun e => self.hash e.type.text == self.hash t.text && e.type.equals t

def push (self : Interner) (e : Entry) : Interner := { self with entries := self.entries ++ [e] }

/-- A missing component is a defect; what was interned before it stays. -/
abbrev Interning (α : Type) := Interner × Except Defect α

/-- The instance of a type: the one interned before, or a new one after those of the components
that `parts` interns. -/
def entryFor (self : Interner) (t : DataType)
    (parts : Interner → Interning (List Instance)) : Interning Instance :=
  match self.find? t with
  | some i => (self, .ok (.entry i))
  | none =>
    match parts self with
    | (next, .ok ps) => (next.push ⟨t, ps⟩, .ok (.entry next.size))
    | (next, .error d) => (next, .error d)

mutual

def intern (self : Interner) : DataType → Interning Instance
  | .record fs => self.entryFor (.record fs) fun self => self.internFields fs
  | .function r ps => self.entryFor (.function r ps) fun self =>
    match self.internMissing r with
    | (next, .error d) => (next, .error d)
    | (next, .ok i) =>
      match next.internAll ps with
      | (last, .ok is) => (last, .ok (i :: is))
      | (last, .error d) => (last, .error d)
  | .scalar s => (self, .ok (.table (.scalar s)))
  | .nullable s => (self, .ok (.table (.nullable s)))
  | .nullableAny => (self, .ok (.table .nullableAny))

def internFields (self : Interner) : List (Text × DataType) → Interning (List Instance)
  | [] => (self, .ok [])
  | (_, t) :: fs =>
    match self.intern t with
    | (next, .error d) => (next, .error d)
    | (next, .ok i) =>
      match next.internFields fs with
      | (last, .ok is) => (last, .ok (i :: is))
      | (last, .error d) => (last, .error d)

def internMissing (self : Interner) : Option DataType → Interning Instance
  | none => (self, .error .missingType)
  | some t => self.intern t

def internAll (self : Interner) : List (Option DataType) → Interning (List Instance)
  | [] => (self, .ok [])
  | t :: ts =>
    match self.internMissing t with
    | (next, .error d) => (next, .error d)
    | (next, .ok i) =>
      match next.internAll ts with
      | (last, .ok is) => (last, .ok (i :: is))
      | (last, .error d) => (last, .error d)

end

/-- The type that an instance stands for. -/
def typeOf? (self : Interner) : Instance → Option DataType
  | .table t => some t
  | .entry i => (self.entries[i]?).map Entry.type

/-- The instances of the direct components. -/
def partsOf (self : Interner) : Instance → List Instance
  | .table _ => []
  | .entry i => ((self.entries[i]?).map Entry.parts).getD []

end Interner

/-- An interner that sorts types by the length of their text. -/
def Interner.empty : Interner := { hash := fun t => t.length.toUInt64 }

end TypedStream
