import DrawnPattern.Catalog
import DrawnPattern.Catalog.Queries
import DrawnPattern.Replay
import DrawnPattern.Row.Graph
set_option autoImplicit false

/-!
# Retrieving catalogs

The catalog is read by one query after the other; the first that fails decides.
Which counts are read depends on the labels and types that were listed, each
taken once and in ascending order.
-/

namespace DrawnPattern.Catalog

/-- The labels or types that a query lists, without repetitions and in
ascending order. -/
def readNames (read : Reader) (query : String) :
    Except Failure (List String) := do
  let rows ← read query
  let names ← (rows.mapM
    fun row => do (← Row.field row labelColumn).asString labelColumn :
      Except DecodeFault (List String))
  pure (Keyed.ofList names : OrderedSet String).toList

/-- The count that a query returns in its only row; a negative one
is refused. -/
def readCount (read : Reader) (query : String) : Except Failure Nat := do
  let row ← read.single query
  let count ← (do (← Row.field row countColumn).asInt countColumn :
    Except DecodeFault Int)
  if count < 0 then throw (.decode (.negativeCount countColumn))
  pure count.toNat

/-- The count of each name by a query of its own. -/
def readCounts (read : Reader) (query : String → String) (names : List String) :
    Except Failure (Map String Nat) := do
  let counts ← names.mapM fun name => do
    pure (name, ← readCount read (query name))
  pure (.ofList counts)

/-- A property with its type, which have to be the two texts of a list. -/
def namedType (cell : Cell) : Except DecodeFault (String × String) := do
  match ← cell.asList propertiesColumn with
  | [name, type] =>
    let name ← name.asString propertiesColumn
    let type ← type.asString propertiesColumn
    pure (name, type)
  | _ => throw (.notNamedType propertiesColumn)

/-- The label or type of a row and the properties it lists. -/
def propertyRow (typeColumn : String) (row : Row) :
    Except DecodeFault (String × List (String × String)) := do
  let label ← (← Row.field row typeColumn).asString typeColumn
  let properties ← (← (← Row.field row propertiesColumn).asList
    propertiesColumn).mapM namedType
  pure (undecorate label, properties)

/-- Adds the properties of one row; a property that is there already keeps
its type. -/
def addPropertyRow (catalog : Map String (Map String String))
    (row : String × List (String × String)) :
    Map String (Map String String) :=
  let known := (Map.get? catalog row.1).getD ∅
  Map.insert catalog row.1
    (row.2.foldl
      (fun types (name, type) => Map.insertNew types name type) known)

/-- The property types that a query lists; of types for one property the
first counts. -/
def readProperties (read : Reader) (query typeColumn : String) :
    Except Failure (Map String (Map String String)) := do
  let rows ← read query
  let rows ← (rows.mapM (propertyRow typeColumn) : Except DecodeFault _)
  pure (rows.foldl addPropertyRow ∅)

/-- The catalog that the queries yield, read one after the other; the first that
fails decides. -/
def retrieve (read : Reader) : Except Failure Catalog := do
  let labels ← readNames read labelsQuery
  let types ← readNames read relationTypesQuery
  let nodeCounts ← readCounts read nodeCountQuery labels
  let relationCounts ← readCounts read relationCountQuery types
  let totalNodes ← readCount read totalNodesQuery
  let totalRelations ← readCount read totalRelationsQuery
  let nodeProperties ← readProperties read nodePropertiesQuery nodeTypeColumn
  let relationProperties ← readProperties read relationPropertiesQuery
    relationTypeColumn
  let row ← read.single schemaQuery
  let schema ← Row.graph? row .schema
  pure { nodeCounts, relationCounts, nodeProperties, relationProperties,
         totalNodes, totalRelations, schema }

/-- The catalog of a replay, read in one session that is closed again, and the
replay after it. -/
def ofReplay (db : Replay) : Except Failure Catalog × Replay :=
  db.inSession retrieve

end DrawnPattern.Catalog
