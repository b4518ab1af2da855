import Mathlib.Data.List.Sort
import NostdbServer.Effects.Codec
import NostdbServer.Failure

/-!
# The catalog document

The durable list of Databases, the journal of one lifecycle operation, and what
makes a catalog acceptable.
-/

namespace NostdbServer

def CATALOG_VERSION : Nat := 1
def OPERATION_VERSION : Nat := 1

structure CatalogDatabase where
  id : String
  name : String
  state : String
  deriving DecidableEq, Repr

structure Catalog where
  catalogVersion : Nat
  databases : List CatalogDatabase
  deriving DecidableEq, Repr

inductive OperationKind
  | create
  | rename
  | drop
  deriving DecidableEq, Repr

structure OperationJournal where
  operationVersion : Nat
  kind : OperationKind
  databaseId : String
  before : Catalog
  after : Catalog
  deriving DecidableEq, Repr

namespace Catalog

open Effects

/-- Plain ways to write the two documents. -/
def entryFormat : Format CatalogDatabase :=
  (Format.string.prod (Format.string.prod Format.string)).map (fun p => ⟨p.1, p.2.1, p.2.2⟩)
    (fun e => (e.id, e.name, e.state)) fun _ => rfl

def format : Format Catalog :=
  (Format.nat.prod entryFormat.list).map (fun p => ⟨p.1, p.2⟩)
    (fun c => (c.catalogVersion, c.databases)) fun _ => rfl

def journalFormat : Format OperationJournal :=
  (Format.nat.prod (Format.nat.prod (Format.string.prod (format.prod format)))).map
    (fun p => ⟨p.1, if p.2.1 = 0 then .create else if p.2.1 = 1 then .rename else .drop,
      p.2.2.1, p.2.2.2.1, p.2.2.2.2⟩)
    (fun j => (j.operationVersion, match j.kind with | .create => 0 | .rename => 1 | .drop => 2,
      j.databaseId, j.before, j.after))
    fun j => by cases j with | mk v k => cases k <;> rfl

end Catalog

-- ---------------------------------------------------------------------------
-- Names and identities
-- ---------------------------------------------------------------------------

def isAsciiLowercase (byte : UInt8) : Bool := 97 ≤ byte && byte ≤ 122
def isAsciiDigit (byte : UInt8) : Bool := 48 ≤ byte && byte ≤ 57
def isHexDigit (byte : UInt8) : Bool :=
  isAsciiDigit byte || (97 ≤ byte && byte ≤ 102) || (65 ≤ byte && byte ≤ 70)

def asBytes (value : String) : List UInt8 := value.toUTF8.data.toList

def validDatabaseName (value : String) : Bool :=
  let bytes := asBytes value
  !bytes.isEmpty && bytes.length ≤ 63 && bytes.head?.any isAsciiLowercase &&
    bytes.all fun byte => isAsciiLowercase byte || isAsciiDigit byte || byte = 95 || byte = 45

/-- Eight, four, four, four and twelve hexadecimal digits, with hyphens between. -/
def parsesHyphenated (bytes : List UInt8) : Bool :=
  bytes.length = 36 && bytes.zipIdx.all fun (byte, i) =>
    if i = 8 ∨ i = 13 ∨ i = 18 ∨ i = 23 then byte = 45 else isHexDigit byte

/-- Whether `Uuid::parse_str` accepts the text: simple, hyphenated, braced or a URN. -/
def parsesAsUuid (value : String) : Bool :=
  let bytes := asBytes value
  match bytes.length with
  | 32 => bytes.all isHexDigit
  | 36 => parsesHyphenated bytes
  | 38 => bytes.head? = some 123 && bytes.getLast? = some 125 &&
      parsesHyphenated (bytes.drop 1).dropLast
  | 45 => bytes.take 9 = asBytes "urn:uuid:" && parsesHyphenated (bytes.drop 9)
  | _ => false

-- ---------------------------------------------------------------------------
-- Catalogs
-- ---------------------------------------------------------------------------

namespace Catalog

def ids (catalog : Catalog) : List String := catalog.databases.map (·.id)
def names (catalog : Catalog) : List String := catalog.databases.map (·.name)

def byName? (catalog : Catalog) (name : String) : Option CatalogDatabase :=
  catalog.databases.find? (·.name = name)

/-- `sort_by` on the names. -/
def sortByName (databases : List CatalogDatabase) : List CatalogDatabase :=
  databases.insertionSort fun left right => left.name ≤ right.name

end Catalog

/-- The loop of `validate_catalog`, with the identities and names met so far. -/
def validateEntries (ids names : List String) : List CatalogDatabase → Except ServerError Unit
  | [] => .ok ()
  | database :: rest =>
    if !parsesAsUuid database.id then
      let id := database.id
      .error ⟨s!"catalog contains invalid stable Database ID `{id}`"⟩
    else if !validDatabaseName database.name then
      let name := database.name
      .error ⟨s!"catalog contains invalid Database name `{name}`"⟩
    else if database.state ≠ "ready" then
      let name := database.name
      let state := database.state
      .error ⟨s!"catalog Database `{name}` has unsupported state `{state}`"⟩
    else if database.id ∈ ids ∨ database.name ∈ names then
      .error ⟨"catalog contains duplicate Database identity or name"⟩
    else validateEntries (database.id :: ids) (database.name :: names) rest

/-- `windows(2)`: every entry's name is below the next one's. -/
def sortedByName : List CatalogDatabase → Bool
  | left :: right :: rest => left.name < right.name && sortedByName (right :: rest)
  | _ => true

def validateCatalog (catalog : Catalog) : Except ServerError Unit := do
  if catalog.catalogVersion ≠ CATALOG_VERSION then
    let version := catalog.catalogVersion
    .error ⟨s!"unsupported catalog_version {version}; this binary supports exactly {CATALOG_VERSION}"⟩
  else
    validateEntries [] [] catalog.databases
    if !sortedByName catalog.databases then
      .error ⟨"catalog Databases must be sorted by unique name"⟩
    else .ok ()

end NostdbServer
