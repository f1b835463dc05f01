import SurfaceExchange.KeyOrder

/-!
# Identifiers

Clients, surfaces and the four kinds of protocol object are known by numbers.
An identifier is looked up where its object would be filed and finds nothing
once the object is gone, so no identifier dangles. An exported or imported
object carries the registry that it was made through, and identifiers are
ordered by that registry first.
-/

namespace SurfaceExchange

/-- A client's connection. -/
structure ClientId where
  val : Nat
  deriving DecidableEq, Repr

/-- A surface of the shell. -/
structure SurfaceId where
  val : Nat
  deriving DecidableEq, Repr

/-- A global that the display advertises. -/
structure GlobalId where
  val : Nat
  deriving DecidableEq, Repr

/-- A bound exporter: a client's registry of exported surfaces. -/
structure ExporterId where
  val : Nat
  deriving DecidableEq, Repr

/-- A bound importer: a client's registry of imported surfaces. -/
structure ImporterId where
  val : Nat
  deriving DecidableEq, Repr

/-- An exported surface, named through its exporter. -/
structure ExportId where
  exporter : ExporterId
  serial : Nat
  deriving DecidableEq, Repr

/-- An imported surface, named through its importer. -/
structure ImportId where
  importer : ImporterId
  serial : Nat
  deriving DecidableEq, Repr

/-- Any protocol object. -/
inductive ObjectId where
  | exporter (id : ExporterId)
  | exported (id : ExportId)
  | importer (id : ImporterId)
  | imported (id : ImportId)
  deriving DecidableEq, Repr

/-! ## Order -/

instance : KeyOrder ClientId :=
  .ofRank (fun id => (id.val, 0)) (by rintro ⟨a⟩ ⟨b⟩ h; simpa using h)

instance : KeyOrder SurfaceId :=
  .ofRank (fun id => (id.val, 0)) (by rintro ⟨a⟩ ⟨b⟩ h; simpa using h)

instance : KeyOrder GlobalId :=
  .ofRank (fun id => (id.val, 0)) (by rintro ⟨a⟩ ⟨b⟩ h; simpa using h)

instance : KeyOrder ExporterId :=
  .ofRank (fun id => (id.val, 0)) (by rintro ⟨a⟩ ⟨b⟩ h; simpa using h)

instance : KeyOrder ImporterId :=
  .ofRank (fun id => (id.val, 0)) (by rintro ⟨a⟩ ⟨b⟩ h; simpa using h)

instance : KeyOrder ExportId :=
  .ofRank (fun id => (id.exporter.val, id.serial)) (by rintro ⟨⟨a⟩, s⟩ ⟨⟨b⟩, t⟩ h; simpa using h)

instance : KeyOrder ImportId :=
  .ofRank (fun id => (id.importer.val, id.serial)) (by rintro ⟨⟨a⟩, s⟩ ⟨⟨b⟩, t⟩ h; simpa using h)

/-- The owner decides; under one owner the serial does. -/
theorem ExportId.lt_iff (a b : ExportId) :
    a < b ↔ a.exporter < b.exporter ∨ (a.exporter = b.exporter ∧ a.serial < b.serial) := by
  obtain ⟨⟨x⟩, m⟩ := a
  obtain ⟨⟨y⟩, n⟩ := b
  show KeyOrder.PairLt (x, m) (y, n) ↔ KeyOrder.PairLt (x, 0) (y, 0) ∨ _
  simp [KeyOrder.PairLt]

/-- The owner decides; under one owner the serial does. -/
theorem ImportId.lt_iff (a b : ImportId) :
    a < b ↔ a.importer < b.importer ∨ (a.importer = b.importer ∧ a.serial < b.serial) := by
  obtain ⟨⟨x⟩, m⟩ := a
  obtain ⟨⟨y⟩, n⟩ := b
  show KeyOrder.PairLt (x, m) (y, n) ↔ KeyOrder.PairLt (x, 0) (y, 0) ∨ _
  simp [KeyOrder.PairLt]

/-! ## Interfaces and written form -/

def exporterInterface : String := "zxdg_exporter_v1"
def exportedInterface : String := "zxdg_exported_v1"
def importerInterface : String := "zxdg_importer_v1"
def importedInterface : String := "zxdg_imported_v1"

/-- The one version of the protocol pair that there is. -/
def protocolVersion : Nat := 1

def ClientId.text (id : ClientId) : String := "client#" ++ toString id.val

def SurfaceId.text (id : SurfaceId) : String := "surface@" ++ toString id.val

def ExporterId.text (id : ExporterId) : String :=
  exporterInterface ++ "@" ++ toString id.val

def ImporterId.text (id : ImporterId) : String :=
  importerInterface ++ "@" ++ toString id.val

def ExportId.text (id : ExportId) : String :=
  exportedInterface ++ "@" ++ toString id.exporter.val ++ "." ++ toString id.serial

def ImportId.text (id : ImportId) : String :=
  importedInterface ++ "@" ++ toString id.importer.val ++ "." ++ toString id.serial

namespace ObjectId

/-- The interface that an object speaks. -/
def interface : ObjectId → String
  | .exporter _ => exporterInterface
  | .exported _ => exportedInterface
  | .importer _ => importerInterface
  | .imported _ => importedInterface

def text : ObjectId → String
  | .exporter id => id.text
  | .exported id => id.text
  | .importer id => id.text
  | .imported id => id.text

end ObjectId

end SurfaceExchange
