import DocContract.Json.Record

/-!
# Host languages

The languages whose files are checked. All of them open a doc block with `/**` and lead its lines
with `*`; they differ in their file extensions and in the fence tags that a usage snippet may carry.
-/

namespace DocContract

/-- A supported host language. -/
inductive Language where
  | typescript
  | javascript
  | java
  | kotlin
  | php
  deriving DecidableEq, Repr, Inhabited

namespace Language

/-- All languages, in the order in which an extension is looked up. -/
def all : List Language := [.typescript, .javascript, .java, .kotlin, .php]

/-- The name under which a unit states its language. -/
def name : Language → Text
  | .typescript => "typescript"
  | .javascript => "javascript"
  | .java => "java"
  | .kotlin => "kotlin"
  | .php => "php"

/-- The name shown to people. -/
def displayName : Language → Text
  | .typescript => "TypeScript"
  | .javascript => "JavaScript"
  | .java => "Java"
  | .kotlin => "Kotlin"
  | .php => "PHP"

/-- The file extensions of the language. -/
def extensions : Language → List Text
  | .typescript => ["ts", "tsx", "mts", "cts"]
  | .javascript => ["js", "jsx", "mjs", "cjs"]
  | .java => ["java"]
  | .kotlin => ["kt", "kts"]
  | .php => ["php"]

/-- The fence tags of snippets in the language, in lower case. -/
def fenceTags : Language → List Text
  | .typescript => ["ts", "typescript", "tsx"]
  | .javascript => ["js", "javascript", "jsx", "mjs", "cjs"]
  | .java => ["java"]
  | .kotlin => ["kotlin", "kt"]
  | .php => ["php"]

/-- The language of a file extension. -/
def ofExtension? (extension : Text) : Option Language :=
  all.find? fun l => l.extensions.contains extension

/-- Is the fence tag one of the language, up to the case of ASCII letters? -/
def acceptsFenceTag (l : Language) (tag : Text) : Bool :=
  l.fenceTags.contains (Text.asciiLower tag)

/-- The language of a name. -/
def ofName? (t : Text) : Option Language := all.find? fun l => l.name == t

/-- The JSON form. -/
def toJson (l : Language) : Json := .string l.name

/-- Reads the JSON form. -/
def ofJson? (j : Json) : Option Language := (Json.asName? j).bind ofName?

end Language

end DocContract
