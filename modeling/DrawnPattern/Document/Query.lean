import DrawnPattern.Document.Graph
import DrawnPattern.Matches
set_option autoImplicit false

/-!
# Documents of options, queries, matches and catalogs
-/

namespace DrawnPattern.Document

/-! ## Options -/

/-- A policy by its exact name. -/
def policy? : Decoder Query.Policy :=
  fun j => choice? .direct j >>= Query.Policy.ofName?

def options? : Decoder Query.Options := fun j => do
  let fields ← fields? ["symmetry", "prune_redundant_labels", "node_prefix",
    "relation_prefix"] j
  let default : Query.Options := {}
  pure
    { policy := ← withDefault fields "symmetry" default.policy policy?
      pruneLabels :=
        ← withDefault fields "prune_redundant_labels" default.pruneLabels bool?
      nodeStem := ← withDefault fields "node_prefix" default.nodeStem string?
      relationStem :=
        ← withDefault fields "relation_prefix" default.relationStem string? }

def ofPolicy (p : Query.Policy) : Json := .str p.name

def ofOptions (o : Query.Options) : Json :=
  .obj
    [ ("symmetry", ofPolicy o.policy),
      ("prune_redundant_labels", .bool o.pruneLabels),
      ("node_prefix", .str o.nodeStem),
      ("relation_prefix", .str o.relationStem) ]

/-! ## Queries -/

/-- A number with its variable. -/
def ofVariable (entry : Int × String) : Json :=
  .arr [ofInt entry.1, .str entry.2]

def ofShape (s : Query.Shape) : Json :=
  .obj [("nodes", ofList ofVariable s.nodes),
    ("relations", ofList ofVariable s.relations)]

def ofSymmetry (s : Symmetry) : Json :=
  .obj
    [ ("node_classes", ofList (ofList ofInt) s.nodeClasses),
      ("relation_classes", ofList (ofList ofInt) s.relationClasses),
      ("flagged", ofList (fun (a, b) => .arr [ofInt a, ofInt b]) s.flagged) ]

def ofQuery (q : Query.CompiledQuery) : Json :=
  .obj
    [ ("text", .str q.text), ("shape", ofShape q.shape),
      ("policy", ofPolicy q.policy), ("symmetry", ofSymmetry q.symmetry) ]

/-! ## Matches -/

def ofBinding (b : Binding) : Json :=
  .obj [("nodes", ofList ofInt b.nodes),
    ("relations", ofList ofInt b.relations)]

def ofMatches (m : Matches) : Json :=
  .obj [("graph", ofGraphOrNull m.graph), ("ids", ofList ofBinding m.reported)]

/-! ## Catalogs -/

def ofCatalog (c : Catalog) : Json :=
  .obj
    [ ("node_counts_by_label", ofMap ofNat c.nodeCounts),
      ("relation_counts_by_label", ofMap ofNat c.relationCounts),
      ("node_properties_by_label", ofMap (ofMap .str) c.nodeProperties),
      ("relation_properties_by_label", ofMap (ofMap .str) c.relationProperties),
      ("total_nodes", ofNat c.totalNodes),
      ("total_relations", ofNat c.totalRelations),
      ("schema_graph", ofGraphOrNull c.schema) ]

end DrawnPattern.Document
