import ResourceQuery.Query.Basic
import ResourceQuery.Proofs.Catalog.Reach

/-!
# Nodes of a query tree

A node of a query is addressed by the chain of relation names that leads to it. `nodes` lists
every node with its chain, and `selectionAt?` looks one up. A query that mirrors a catalog includes
under every node only relations of its entity, each once (`Query.Mirrors`); there the list and the
look-up agree (`mem_nodes_iff`) and no two nodes have the same chain (`nodup_chains`).
-/
namespace ResourceQuery.Query

/-- Induction over a query: a node is settled once the queries included under it are. -/
theorem inductionOn {motive : Query → Prop}
    (node : ∀ selection includes, (∀ included ∈ includes, motive included.2) →
      motive (.node selection includes)) (query : Query) : motive query :=
  @Query.rec motive (fun includes => ∀ included ∈ includes, motive included.2)
    (fun included => motive included.2) (fun selection includes below => node selection includes below)
    (fun _ member => absurd member List.not_mem_nil)
    (fun _ _ first others included member => by
      rcases List.mem_cons.1 member with rfl | member
      · exact first
      · exact others included member)
    (fun _ _ below => below) query

/-- The name of an included relation. -/
def includedName (included : Relation × Query) : String := included.1.name

mutual

/-- The nodes of a query, each with the chain of relation names that leads to it. -/
def nodes : Query → List (List String × Selection)
  | node selection includes => ([], selection) :: includedNodes includes

/-- The nodes of included queries. -/
def includedNodes : List (Relation × Query) → List (List String × Selection)
  | [] => []
  | (relation, query) :: rest =>
    query.nodes.map (fun (chain, selection) => (relation.name :: chain, selection)) ++
      includedNodes rest

end

/-- The chains of the nodes of a query. -/
def chains (query : Query) : List (List String) := query.nodes.map Prod.fst

/-- What is asked of the rows at the end of a chain. -/
def selectionAt? (query : Query) (chain : List String) : Option Selection :=
  (query.at? chain).map selection

/-- The relations included under every node are the catalog's relations of its entity, each once,
and their rows are those of the targets. -/
inductive Mirrors (catalog : Catalog) : Query → Prop
  /-- A node with its included relations. -/
  | node {selection : Selection} {includes : List (Relation × Query)}
      (names : (includes.map includedName).Nodup)
      (known : ∀ included ∈ includes, ∃ target,
        catalog.step? selection.entity (includedName included) = some (included.1, target) ∧
          included.2.selection.bare = .ofRelation included.1 target)
      (below : ∀ included ∈ includes, Mirrors catalog included.2) :
      Mirrors catalog (.node selection includes)

/-- A query without included relations mirrors every catalog. -/
theorem Mirrors.leaf (catalog : Catalog) (selection : Selection) :
    Mirrors catalog (.node selection []) :=
  .node List.nodup_nil (fun _ member => absurd member List.not_mem_nil)
    (fun _ member => absurd member List.not_mem_nil)

/-- A query with its selection changed has the changed selection. -/
@[simp] theorem selection_mapSelection (query : Query) (change : Selection → Selection) :
    (query.mapSelection change).selection = change query.selection := by
  cases query
  rfl

/-- Asking more of the rows of a node leaves its relations those of the catalog. -/
theorem Mirrors.mapSelection {catalog : Catalog} {query : Query} (mirrors : query.Mirrors catalog)
    {change : Selection → Selection} (same : (change query.selection).bare = query.selection.bare) :
    (query.mapSelection change).Mirrors catalog := by
  obtain ⟨selection, includes⟩ := query
  obtain ⟨names, known, below⟩ := mirrors
  have entity : (change selection).entity = selection.entity := Selection.entity_of_bare same
  refine .node names (fun included member => ?_) below
  rw [entity]
  exact known included member

/-- Two queries include the same, and read the same rows. -/
structure SameTree (query other : Query) : Prop where
  /-- The included relations are the same. -/
  includes : query.includes = other.includes
  /-- The same rows are read. -/
  bare : query.selection.bare = other.selection.bare

/-- What includes and reads the same mirrors the same catalogs. -/
theorem SameTree.mirrors {catalog : Catalog} {query other : Query} (same : query.SameTree other)
    (mirrors : other.Mirrors catalog) : query.Mirrors catalog := by
  obtain ⟨selection, includes⟩ := query
  obtain ⟨own, present⟩ := other
  obtain ⟨rfl, bare⟩ := same
  show Query.Mirrors catalog ((node own includes).mapSelection fun _ => selection)
  exact mirrors.mapSelection bare

/-! ### Look-ups -/

/-- The child of a name is the first included query of that name. -/
theorem child?_node (selection : Selection) (includes : List (Relation × Query)) (name : String) :
    (node selection includes).child? name =
      (includes.find? fun included => included.1.name = name).map Prod.snd := rfl

/-- A longer chain goes on in an included query. -/
theorem at?_cons (query : Query) (name : String) (rest : List String) :
    query.at? (name :: rest) = (query.child? name).bind fun child => child.at? rest := rfl

/-- A chain goes on from where its beginning leads. -/
theorem at?_append (query : Query) (chain rest : List String) :
    query.at? (chain ++ rest) = (query.at? chain).bind fun node => node.at? rest := by
  induction chain generalizing query with
  | nil => rfl
  | cons name others ih => simp only [List.cons_append, at?_cons, Option.bind_assoc, ih]

/-- The selection of the node itself. -/
@[simp] theorem selectionAt?_nil (query : Query) :
    query.selectionAt? [] = some query.selection := rfl

/-- The selection at the end of a chain is that of the node there. -/
theorem selectionAt?_of_at? {query node : Query} {chain : List String}
    (found : query.at? chain = some node) : query.selectionAt? chain = some node.selection :=
  congrArg (Option.map selection) found

/-- The selection at a longer chain is one of an included query. -/
theorem selectionAt?_cons (query : Query) (name : String) (rest : List String) :
    query.selectionAt? (name :: rest) =
      (query.child? name).bind fun child => child.selectionAt? rest := by
  simp only [selectionAt?, at?_cons, Option.map_bind]
  rfl

/-- The selection at a chain that goes on from another node. -/
theorem selectionAt?_append (query : Query) (chain rest : List String) :
    query.selectionAt? (chain ++ rest) =
      (query.at? chain).bind fun node => node.selectionAt? rest := by
  simp only [selectionAt?, at?_append, Option.map_bind]
  rfl

/-- Changing what is asked of the rows changes the node itself and no other. -/
theorem selectionAt?_mapSelection (query : Query) (change : Selection → Selection)
    (chain : List String) : (query.mapSelection change).selectionAt? chain =
      if chain = [] then some (change query.selection) else query.selectionAt? chain := by
  cases query
  cases chain <;> rfl

/-- Queries that include the same have the same nodes below them. -/
theorem SameTree.selectionAt? {query other : Query} (same : query.SameTree other) {chain : List String}
    (further : chain ≠ []) : query.selectionAt? chain = other.selectionAt? chain := by
  obtain ⟨selection, includes⟩ := query
  obtain ⟨rfl, -⟩ := same
  cases other
  cases chain with
  | nil => exact absurd rfl further
  | cons name rest => rfl

/-- A relation found under a name has that name. -/
theorem name_of_find? {includes : List (Relation × Query)} {name : String}
    {included : Relation × Query}
    (found : includes.find? (fun included => included.1.name = name) = some included) :
    included.1.name = name := by simpa using List.find?_some found

/-- Where names are different, an included relation is found under its name. -/
theorem find?_of_mem {includes : List (Relation × Query)}
    (names : (includes.map includedName).Nodup) {included : Relation × Query}
    (member : included ∈ includes) :
    includes.find? (fun other => other.1.name = included.1.name) = some included := by
  induction includes with
  | nil => contradiction
  | cons first rest ih =>
    obtain ⟨fresh, others⟩ := List.nodup_cons.1 names
    rcases List.mem_cons.1 member with rfl | member
    · simp
    · have apart : first.1.name ≠ included.1.name := fun same =>
        fresh (List.mem_map.2 ⟨included, member, same.symm⟩)
      rw [List.find?_cons_of_neg (by simpa using apart)]
      exact ih others member

/-- Where names are different, an included query is the child of its name. -/
theorem child?_of_mem {selection : Selection} {includes : List (Relation × Query)}
    (names : (includes.map includedName).Nodup) {included : Relation × Query}
    (member : included ∈ includes) :
    (node selection includes).child? included.1.name = some included.2 := by
  change (includes.find? _).map Prod.snd = _
  rw [find?_of_mem names member]
  rfl

/-- A child is an included query of that name. -/
theorem mem_of_child? {selection : Selection} {includes : List (Relation × Query)} {name : String}
    {child : Query} (found : (node selection includes).child? name = some child) :
    ∃ relation, (relation, child) ∈ includes ∧ relation.name = name := by
  obtain ⟨⟨relation, query⟩, first, rfl⟩ := Option.map_eq_some_iff.1 found
  exact ⟨relation, List.mem_of_find?_eq_some first, name_of_find? first⟩

/-- A name is of a child exactly when an included relation has it. -/
theorem isSome_child?_iff {query : Query} {name : String} :
    (query.child? name).isSome = true ↔ name ∈ query.includes.map includedName := by
  obtain ⟨selection, includes⟩ := query
  rw [child?_node, Option.isSome_map, List.find?_isSome, List.mem_map]
  simp only [decide_eq_true_eq]
  exact Iff.rfl

/-- A node of a query that mirrors a catalog mirrors it. -/
theorem Mirrors.at {catalog : Catalog} {query node : Query} (mirrors : query.Mirrors catalog)
    {chain : List String} (found : query.at? chain = some node) : node.Mirrors catalog := by
  induction chain generalizing query with
  | nil => exact Option.some.inj found ▸ mirrors
  | cons name rest ih =>
    rw [at?_cons] at found
    obtain ⟨child, named, further⟩ := Option.bind_eq_some_iff.1 found
    obtain ⟨selection, includes⟩ := query
    obtain ⟨relation, member, -⟩ := mem_of_child? named
    obtain ⟨-, -, below⟩ := mirrors
    exact ih (below _ member) further

/-- A query included at a node of a query that mirrors a catalog is at the chain that is one name longer. -/
theorem Mirrors.at?_included {catalog : Catalog} {query node : Query} (mirrors : query.Mirrors catalog)
    {chain : List String} (found : query.at? chain = some node) {included : Relation × Query}
    (member : included ∈ node.includes) :
    query.at? (chain ++ [included.1.name]) = some included.2 := by
  have nodeMirrors := mirrors.at found
  obtain ⟨selection, includes⟩ := node
  obtain ⟨names, -, -⟩ := nodeMirrors
  rw [at?_append, found, Option.bind_some, at?_cons, child?_of_mem names member]
  rfl

/-- A query included at the end of a chain is that of the last relation that the catalog follows. -/
theorem Mirrors.included_of_at? {catalog : Catalog} {query child : Query} (mirrors : query.Mirrors catalog)
    {chain : List String} {name : String} (found : query.at? (chain ++ [name]) = some child) :
    ∃ node relation target before, query.at? chain = some node ∧ (relation, child) ∈ node.includes ∧
      relation.name = name ∧ child.selection.bare = .ofRelation relation target ∧
      catalog.follow? query.selection.entity (chain ++ [name]) = some (before ++ [(relation, target)]) := by
  induction chain generalizing query with
  | nil =>
    obtain ⟨own, named, same⟩ := Option.bind_eq_some_iff.1 found
    obtain rfl := Option.some.inj same
    obtain ⟨selection, includes⟩ := query
    obtain ⟨relation, member, rfl⟩ := mem_of_child? named
    obtain ⟨-, known, -⟩ := mirrors
    obtain ⟨target, step, rows⟩ := known _ member
    exact ⟨.node selection includes, relation, target, [], rfl, member, rfl, rows, Catalog.follow?_cons step []⟩
  | cons first rest ih =>
    obtain ⟨own, named, further⟩ := Option.bind_eq_some_iff.1 found
    obtain ⟨selection, includes⟩ := query
    obtain ⟨through, member, rfl⟩ := mem_of_child? named
    obtain ⟨-, known, below⟩ := mirrors
    obtain ⟨passed, step, rows⟩ := known _ member
    obtain ⟨node, relation, target, before, there, included, same, bare, followed⟩ := ih (below _ member) further
    have entity : own.selection.entity = through.target :=
      (Selection.entity_of_bare (rows.trans (Selection.bare_ofRelation through passed).symm)).trans
        (Catalog.target_of_step? step)
    have along := Catalog.follow?_cons step (rest ++ [name])
    rw [← entity, followed] at along
    refine ⟨node, relation, target, (through, passed) :: before, ?_, included, same, bare, along⟩
    rw [at?_cons, named]
    exact there

/-! ### The list of nodes -/

/-- A chain is listed under included relations exactly when it starts with the name of one and goes
on to a node of its query. -/
theorem mem_includedNodes_iff {includes : List (Relation × Query)} {chain : List String}
    {selection : Selection} : (chain, selection) ∈ includedNodes includes ↔
      ∃ included ∈ includes, ∃ rest, chain = included.1.name :: rest ∧
        (rest, selection) ∈ included.2.nodes := by
  induction includes with
  | nil => simp [includedNodes]
  | cons first others ih =>
    obtain ⟨relation, query⟩ := first
    simp only [includedNodes, List.mem_append, ih, List.mem_cons, exists_eq_or_imp]
    apply or_congr_left
    simp only [List.mem_map, Prod.exists, Prod.mk.injEq]
    constructor
    · rintro ⟨rest, found, member, rfl, rfl⟩
      exact ⟨rest, rfl, member⟩
    · rintro ⟨rest, rfl, member⟩
      exact ⟨rest, selection, member, rfl, rfl⟩

/-- In a query that mirrors a catalog, a listed node is the one that its chain leads to. -/
theorem mem_nodes_iff {catalog : Catalog} {query : Query} (mirrors : query.Mirrors catalog)
    {chain : List String} {selection : Selection} :
    (chain, selection) ∈ query.nodes ↔ query.selectionAt? chain = some selection := by
  induction query using inductionOn generalizing chain with
  | node own includes ih =>
    obtain ⟨names, -, below⟩ := mirrors
    simp only [nodes, List.mem_cons, Prod.mk.injEq, mem_includedNodes_iff]
    constructor
    · rintro (⟨rfl, rfl⟩ | ⟨included, member, rest, rfl, listed⟩)
      · rfl
      · rw [selectionAt?_cons, child?_of_mem names member]
        exact (ih included member (below included member)).1 listed
    · intro found
      cases chain with
      | nil =>
        have same := Option.some.inj found
        subst same
        exact .inl ⟨rfl, rfl⟩
      | cons name rest =>
        rw [selectionAt?_cons] at found
        obtain ⟨child, named, further⟩ := Option.bind_eq_some_iff.1 found
        obtain ⟨relation, member, rfl⟩ := mem_of_child? named
        exact .inr ⟨_, member, rest, rfl, (ih _ member (below _ member)).2 further⟩

/-- In a query that mirrors a catalog, no two nodes have the same chain. -/
theorem nodup_chains {catalog : Catalog} {query : Query} (mirrors : query.Mirrors catalog) :
    query.chains.Nodup := by
  induction query using inductionOn with
  | node own includes ih =>
    obtain ⟨names, -, below⟩ := mirrors
    have included : ((includedNodes includes).map Prod.fst).Nodup := by
      clear own
      induction includes with
      | nil => exact List.nodup_nil
      | cons first rest later =>
        obtain ⟨relation, query⟩ := first
        obtain ⟨fresh, others⟩ := List.nodup_cons.1 names
        simp only [includedNodes, List.map_append, List.map_map]
        refine List.nodup_append.2 ⟨?_, later (fun other member => ih other (.tail _ member)) others
          (fun other member => below other (.tail _ member)), ?_⟩
        · have own := ih (relation, query) (.head _) (below _ (.head _))
          have shape : (Prod.fst ∘ fun (node : List String × Selection) =>
              (relation.name :: node.1, node.2)) = (relation.name :: ·) ∘ Prod.fst := rfl
          rw [shape, ← List.map_map]
          exact List.pairwise_map.2 (own.imp fun apart same => apart (List.cons.inj same).2)
        · -- Chains of this relation start with its name, which no later relation has.
          rintro chain here _ there rfl
          obtain ⟨⟨tail, selection⟩, -, rfl⟩ := List.mem_map.1 here
          obtain ⟨⟨chain, selection⟩, listed, same⟩ := List.mem_map.1 there
          obtain ⟨other, member, suffix, rfl, -⟩ := mem_includedNodes_iff.1 listed
          exact fresh (List.mem_map.2 ⟨other, member, (List.cons.inj same).1⟩)
    refine List.nodup_cons.2 ⟨fun root => ?_, included⟩
    obtain ⟨⟨chain, selection⟩, listed, same⟩ := List.mem_map.1 root
    obtain ⟨other, member, suffix, rfl, -⟩ := mem_includedNodes_iff.1 listed
    exact List.cons_ne_nil _ _ same

end ResourceQuery.Query
