import DocContract.Json.Record

/-!
# Signatures

What the indexer knows of a declaration: its kind and name, its parameters and result, its generics,
the kinds of errors it raises and the fields of its type. A type lists the fields that the signature
exposes, and those fields have types again, so signatures are trees of any depth.
-/

namespace DocContract

mutual
/-- A type as the signature exposes it. -/
structure TypeRef where
  /-- The type as it is written. -/
  text : Text
  /-- The fields that the signature exposes; an opaque type has none. -/
  fields : List Field
  /-- The type has documentation of its own elsewhere. -/
  documentedElsewhere : Bool

/-- A named field of a type. -/
structure Field where
  name : Text
  type? : Option TypeRef
  optional : Bool
end

/-- A parameter of a callable symbol. -/
structure Parameter where
  name : Text
  type? : Option TypeRef
  optional : Bool

/-- The kind of a symbol. -/
inductive SymbolKind where
  | function
  | method
  | classType
  | interface
  | type
  | property
  deriving DecidableEq, Repr

namespace SymbolKind

/-- All kinds. -/
def all : List SymbolKind := [.function, .method, .classType, .interface, .type, .property]

/-- The name of a kind. -/
def name : SymbolKind → Text
  | .function => "function"
  | .method => "method"
  | .classType => "class"
  | .interface => "interface"
  | .type => "type"
  | .property => "property"

/-- Can symbols of the kind be called? -/
def isCallable : SymbolKind → Bool
  | .function => true
  | .method => true
  | _ => false

/-- The kind of a name. -/
def ofName? (t : Text) : Option SymbolKind := all.find? fun k => k.name == t

end SymbolKind

/-- A declared symbol with its signature. -/
structure Symbol where
  kind : SymbolKind
  name : Text
  parameters : List Parameter := []
  returnType? : Option TypeRef := none
  generics : List Text := []
  raiseKinds : List Text := []
  isAsync : Bool := false
  isExported : Bool := false
  /-- The fields of a class, an interface or a type. -/
  fields : List Field := []
  /-- An internal symbol of this kind of work has to be documented as well. -/
  requiresDocs : Bool := false
  /-- The line of the declaration, counted from one. -/
  declarationLine : Nat

namespace TypeRef

/-- The spellings of types that carry no value. -/
def voidTexts : List Text :=
  ["", "void", "Void", "undefined", "never", "Unit", "Promise<void>", "Promise<undefined>",
   "CompletableFuture<Void>"]

/-- Does the type carry no value? Blanks in its text do not count. -/
def isVoid (t : TypeRef) : Bool := voidTexts.contains (t.text.filter fun c => !Text.isBlank c)

end TypeRef

namespace Symbol

/-- The text that identifies the symbol in a diagnostic. -/
def id (s : Symbol) : Text := s.name ++ "@" ++ Text.ofNat s.declarationLine

/-- Does the symbol produce a value, which has to be documented? -/
def returnsValue (s : Symbol) : Bool :=
  s.kind.isCallable && s.returnType?.any fun t => !t.isVoid

/-- The symbol with one more parameter. -/
def addParameter (s : Symbol) (p : Parameter) : Symbol :=
  { s with parameters := s.parameters ++ [p] }

/-- The symbol with one more field. -/
def addField (s : Symbol) (f : Field) : Symbol := { s with fields := s.fields ++ [f] }

/-- The symbol with one more generic. -/
def addGeneric (s : Symbol) (name : Text) : Symbol := { s with generics := s.generics ++ [name] }

/-- The symbol with one more kind of error. -/
def addRaise (s : Symbol) (kind : Text) : Symbol := { s with raiseKinds := s.raiseKinds ++ [kind] }

end Symbol

end DocContract
