import DrawnPattern.Query.Name
set_option autoImplicit false

/-!
# The queries behind a catalog

Seven fixed queries and two families of count queries, one for each label and
one for each relationship type.  Every query names its columns, so its rows are
read by name.
-/

namespace DrawnPattern.Catalog

open Query

/-! ## Columns -/

/-- A label or a relationship type. -/
def labelColumn : String := "label"

/-- A count. -/
def countColumn : String := "count"

/-- A decorated node label. -/
def nodeTypeColumn : String := "nodeType"

/-- A decorated relationship type. -/
def relationTypeColumn : String := "relType"

/-- Pairs of a property and its type. -/
def propertiesColumn : String := "properties"

/-! ## Fixed queries -/

def labelsQuery : String := "CALL db.labels() YIELD label RETURN label"

def relationTypesQuery : String :=
  "CALL db.relationshipTypes() YIELD relationshipType RETURN relationshipType AS label"

def totalNodesQuery : String := "MATCH (n) RETURN count(n) AS count"

def totalRelationsQuery : String := "MATCH ()-[r]->() RETURN count(r) AS count"

def nodePropertiesQuery : String :=
  "CALL db.schema.nodeTypeProperties() YIELD nodeType, propertyName, propertyTypes " ++
  "WHERE propertyName IS NOT NULL " ++
  "RETURN nodeType, collect([propertyName, propertyTypes[0]]) AS properties"

def relationPropertiesQuery : String :=
  "CALL db.schema.relTypeProperties() YIELD relType, propertyName, propertyTypes " ++
  "WHERE propertyName IS NOT NULL " ++
  "RETURN relType, collect([propertyName, propertyTypes[0]]) AS properties"

def schemaQuery : String :=
  "CALL db.schema.visualization() YIELD nodes, relationships RETURN nodes, relationships"

/-! ## Count queries -/

/-- Counts the nodes that carry a label, which is written as an identifier and
so may be any text. -/
def nodeCountQuery (label : String) : String :=
  "MATCH (n:" ++ identifier label ++ ") RETURN count(n) AS count"

/-- Counts the relationships of a type, which is written as an identifier and so
may be any text. -/
def relationCountQuery (type : String) : String :=
  "MATCH ()-[r:" ++ identifier type ++ "]->() RETURN count(r) AS count"

/-! ## Decorated names -/

/-- Removes a colon with a backtick in front, and a backtick at the end, each if
it is there. -/
def undecoratedChars (name : List Char) : List Char :=
  let name := match name with
    | ':' :: c :: rest => if c = backtick then rest else name
    | _ => name
  if name.getLast? = some backtick then name.dropLast else name

/-- The name inside the decoration that schema procedures put around it; a name
without one stays as it is. -/
def undecorate (name : String) : String :=
  String.ofList (undecoratedChars name.toList)

end DrawnPattern.Catalog
