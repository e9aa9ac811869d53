import ResourceQuery.Proofs.Query.Node

/-!
# Configuring one node

What including a relation does to the nodes of a query. The configuration is handed the node at the
end of the chain, which is a fresh one where there is none, and its result takes that place; the
nodes on the way are found or made fresh, and every other node stays as it is
(`ConfiguredAt.selectionAt`). In a query that mirrors the catalog this happens exactly when the
chain is resolved (`configureAt_of_reach?`), and the query mirrors the catalog afterwards.
-/
namespace ResourceQuery.Query

variable {α : Type} {catalog : Catalog}

/-- Included relations with a query under the name of a relation: in place of the query that is there, or after all
others. -/
def place (relation : Relation) (made : Query) : List (Relation × Query) → List (Relation × Query)
  | [] => [(relation, made)]
  | (own, query) :: rest =>
    if own.name = relation.name then (own, made) :: rest else (own, query) :: place relation made rest

/-- Where the query of a name is one of a relation or would be, what is placed there is found under the name, and
under every other name what was there. -/
theorem find?_place {relation : Relation} {child made : Query} {fresh : Option (Relation × Query)}
    {includes : List (Relation × Query)}
    (found : (includes.find? fun included => included.1.name = relation.name).or fresh = some (relation, child))
    (other : String) : (place relation made includes).find? (fun included => included.1.name = other) =
      if other = relation.name then some (relation, made)
      else includes.find? fun included => included.1.name = other := by
  induction includes with
  | nil =>
    by_cases same : other = relation.name
    · simp [place, same]
    · simp [place, same, Ne.symm same]
  | cons included rest ih =>
    obtain ⟨own, query⟩ := included
    by_cases here : own.name = relation.name
    · -- The name is the first one, so the rest of the list stays.
      have same : (own, query) = (relation, child) := by simpa [List.find?_cons, here] using found
      obtain ⟨rfl, rfl⟩ := Prod.mk.inj same
      by_cases same : other = own.name
      · simp [place, same]
      · rw [place, if_pos rfl, if_neg same, List.find?_cons_of_neg (by simpa using Ne.symm same),
          List.find?_cons_of_neg (by simpa using Ne.symm same)]
    · rw [List.find?_cons_of_neg (by simpa using here)] at found
      rw [place, if_neg here]
      by_cases same : own.name = other
      · have apart : other ≠ relation.name := fun equal => here (same.trans equal)
        simp [same, apart]
      · rw [List.find?_cons_of_neg (by simpa using same), List.find?_cons_of_neg (by simpa using same), ih found]

/-- Placing a query keeps the relations in their order; one of a new name comes last. -/
theorem map_fst_place (relation : Relation) (made : Query) (includes : List (Relation × Query)) :
    (place relation made includes).map Prod.fst =
      if relation.name ∈ includes.map includedName then includes.map Prod.fst
      else includes.map Prod.fst ++ [relation] := by
  induction includes with
  | nil => rfl
  | cons included rest ih =>
    obtain ⟨own, query⟩ := included
    by_cases here : own.name = relation.name
    · simp [place, here, includedName]
    · have absent : relation.name ≠ own.name := Ne.symm here
      rw [place, if_neg here, List.map_cons, ih]
      simp only [List.map_cons, List.mem_cons, includedName, absent, false_or]
      split <;> rfl

/-- Placing a query adds nothing else to the list. -/
theorem mem_place {relation : Relation} {child made : Query} {fresh : Option (Relation × Query)}
    {includes : List (Relation × Query)}
    (found : (includes.find? fun included => included.1.name = relation.name).or fresh = some (relation, child))
    {included : Relation × Query} (member : included ∈ place relation made includes) :
    included = (relation, made) ∨ included ∈ includes := by
  induction includes with
  | nil => exact .inl (List.mem_singleton.1 member)
  | cons first rest ih =>
    obtain ⟨own, query⟩ := first
    by_cases here : own.name = relation.name
    · have same : (own, query) = (relation, child) := by simpa [List.find?_cons, here] using found
      obtain ⟨rfl, rfl⟩ := Prod.mk.inj same
      rw [place, if_pos rfl] at member
      exact (List.mem_cons.1 member).imp_right (List.Mem.tail _)
    · rw [List.find?_cons_of_neg (by simpa using here)] at found
      rw [place, if_neg here] at member
      rcases List.mem_cons.1 member with rfl | later
      · exact .inr (.head rest)
      · exact (ih found later).imp_right (List.Mem.tail _)

/-- Configuring the query of a name places what the configuration makes of it. -/
theorem configureChild_eq_place {name : String} {fresh : Option (Relation × Query)}
    {configure : Query → Option α × Query} {includes : List (Relation × Query)} {relation : Relation}
    {child made : Query} {answer : Option α}
    (found : (includes.find? fun included => included.1.name = name).or fresh = some (relation, child))
    (named : relation.name = name) (answered : configure child = (answer, made)) :
    configureChild name fresh configure includes = (answer, place relation made includes) := by
  induction includes with
  | nil =>
    have fresh : fresh = some (relation, child) := found
    simp [configureChild, place, fresh, answered]
  | cons included rest ih =>
    obtain ⟨own, query⟩ := included
    by_cases here : own.name = name
    · have same : (own, query) = (relation, child) := by simpa [List.find?_cons, here] using found
      obtain ⟨rfl, rfl⟩ := Prod.mk.inj same
      simp [configureChild, place, here, answered]
    · rw [List.find?_cons_of_neg (by simpa using here)] at found
      have apart : own.name ≠ relation.name := fun same => here (same.trans named)
      simp [configureChild, place, here, apart, ih found]

/-- Configuring the query of a name that is included, or for which a fresh one is at hand, changes
what is found under that name and nothing else. -/
theorem configureChild_find? {name : String} {fresh : Option (Relation × Query)}
    {configure : Query → Option α × Query} {includes : List (Relation × Query)}
    {relation : Relation} {child configured : Query} {answer : Option α}
    (found : (includes.find? fun included => included.1.name = name).or fresh =
      some (relation, child)) (named : relation.name = name)
    (answered : configure child = (answer, configured)) :
    ∃ result, configureChild name fresh configure includes = (answer, result) ∧
      (∀ other, result.find? (fun included => included.1.name = other) =
        if other = name then some (relation, configured)
        else includes.find? fun included => included.1.name = other) ∧
      result.map includedName = (if name ∈ includes.map includedName then includes.map includedName
        else includes.map includedName ++ [name]) ∧
      ∀ included ∈ result, included = (relation, configured) ∨ included ∈ includes := by
  have names : ∀ includes : List (Relation × Query),
      includes.map includedName = (includes.map Prod.fst).map Relation.name := fun includes =>
    (List.map_map ..).symm
  have placed := configureChild_eq_place found named answered
  subst named
  refine ⟨place relation configured includes, placed, find?_place found, ?_, fun _ => mem_place found⟩
  rw [names, map_fst_place]
  split
  · exact (names includes).symm
  · rw [List.map_append, ← names]
    rfl

/-- A step from a node: the relation and target that the catalog gives for a name, and the query that
a configuration finds there, which is the included one or a fresh one. -/
structure Descent (catalog : Catalog) (query : Query) (name : String) (relation : Relation)
    (target : Entity) (child : Query) : Prop where
  /-- The catalog knows the relation and its target. -/
  step : catalog.step? query.selection.entity name = some (relation, target)
  /-- The query is the child of the name, or a fresh one. -/
  found : (query.child? name).getD (ofRelation relation target) = child
  /-- It is found under the relation. -/
  look : (query.includes.find? fun included => included.1.name = name).or
    (some (relation, ofRelation relation target)) = some (relation, child)
  /-- It mirrors the catalog. -/
  mirrors : child.Mirrors catalog
  /-- Its rows are those of the relation. -/
  rows : child.selection.bare = .ofRelation relation target

/-- A query that mirrors the catalog has a step for every relation of its entity with a known
target. -/
theorem Mirrors.descent {query : Query} (mirrors : query.Mirrors catalog) {name : String}
    {relation : Relation} {target : Entity}
    (step : catalog.step? query.selection.entity name = some (relation, target)) :
    ∃ child, Descent catalog query name relation target child := by
  obtain ⟨selection, includes⟩ := query
  obtain ⟨-, known, below⟩ := mirrors
  cases present : includes.find? fun included => included.1.name = name with
  | none =>
    refine ⟨ofRelation relation target, step, ?_, ?_, .leaf catalog _, rfl⟩
    · rw [child?_node, present]
      rfl
    · rw [show (Query.node selection includes).includes = includes from rfl, present]
      rfl
  | some included =>
    have member := List.mem_of_find?_eq_some present
    have named := name_of_find? present
    obtain ⟨other, same, rows⟩ := known included member
    rw [includedName, named] at same
    obtain ⟨rfl, rfl⟩ := Prod.mk.inj (Option.some.inj (step.symm.trans same))
    refine ⟨included.2, step, ?_, ?_, below included member, rows⟩
    · rw [child?_node, present]
      rfl
    · rw [show (Query.node selection includes).includes = includes from rfl, present]
      rfl

namespace Descent

variable {query child : Query} {name : String} {relation : Relation} {target : Entity}

/-- The rows of the child are those of the target. -/
theorem entity (descent : Descent catalog query name relation target child) :
    child.selection.entity = (Selection.ofRelation relation target).entity :=
  Selection.entity_of_bare (descent.rows.trans (Selection.bare_ofRelation relation target).symm)

/-- Where a longer chain leads from the query is where its rest leads from the relation. -/
theorem reach? (descent : Descent catalog query name relation target child) (rest : List String) :
    catalog.reach? query.selection (name :: rest) =
      catalog.reach? (.ofRelation relation target) rest := by
  rw [Catalog.reach?_cons, descent.step]
  rfl

/-- The rest of a chain is resolved from the child exactly when the chain is from the query. -/
theorem isSome_reach? (descent : Descent catalog query name relation target child)
    (rest : List String) : (catalog.reach? child.selection rest).isSome =
      (catalog.reach? query.selection (name :: rest)).isSome := by
  rw [descent.reach?, ← Catalog.resolves_eq_isSome_reach?, descent.entity,
    Catalog.resolves_eq_isSome_reach?]

/-- Past the name, the nodes of the child are the nodes of the query. -/
theorem at? (descent : Descent catalog query name relation target child) {rest : List String}
    (further : rest ≠ []) : child.at? rest = query.at? (name :: rest) := by
  have found := descent.found
  rw [at?_cons]
  cases present : query.child? name with
  | none =>
    have same : ofRelation relation target = child := by simpa [present] using found
    subst same
    cases rest with
    | nil => exact absurd rfl further
    | cons next others => rfl
  | some known =>
    have same : known = child := by simpa [present] using found
    subst same
    rfl

/-- Past the name, what is asked of the rows below the child is what is asked below the query. -/
theorem selectionAt? (descent : Descent catalog query name relation target child)
    {rest : List String} (further : rest ≠ []) :
    child.selectionAt? rest = query.selectionAt? (name :: rest) :=
  congrArg (Option.map selection) (descent.at? further)

/-- From the name on, the nodes that the child has or would have are those that the query has or
would have. -/
theorem selectionAt?_or_reach? (descent : Descent catalog query name relation target child)
    (rest : List String) : (child.selectionAt? rest).or (catalog.reach? child.selection rest) =
      (query.selectionAt? (name :: rest)).or (catalog.reach? query.selection (name :: rest)) := by
  rw [descent.reach?]
  cases rest with
  | nil =>
    have found := descent.found
    rw [selectionAt?_cons]
    cases present : query.child? name with
    | none =>
      have same : ofRelation relation target = child := by simpa [present] using found
      subst same
      rfl
    | some known =>
      have same : known = child := by simpa [present] using found
      subst same
      rfl
  | cons next others =>
    rw [descent.selectionAt? (List.cons_ne_nil next others),
      Catalog.reach?_congr descent.entity (List.cons_ne_nil next others)]

end Descent

/-- A resolved chain has a first step. -/
theorem Mirrors.descent_of_reach? {query : Query} (mirrors : query.Mirrors catalog) {name : String}
    {rest : List String} (reached : (catalog.reach? query.selection (name :: rest)).isSome) :
    ∃ relation target child, Descent catalog query name relation target child := by
  obtain ⟨last, found⟩ := Option.isSome_iff_exists.1 reached
  rw [Catalog.reach?_cons] at found
  obtain ⟨⟨relation, target⟩, step, -⟩ := Option.bind_eq_some_iff.1 found
  exact ⟨relation, target, mirrors.descent step⟩

/-- The node at the end of a chain, a fresh one where there is none. -/
def nodeAt (catalog : Catalog) : List String → Query → Query
  | [], query => query
  | name :: rest, query =>
    match catalog.step? query.selection.entity name with
    | some (relation, target) =>
      nodeAt catalog rest ((query.child? name).getD (ofRelation relation target))
    | none => query

/-- The node at the end of a longer chain is reached through a step. -/
theorem Descent.nodeAt_cons {query child : Query} {name : String} {relation : Relation}
    {target : Entity} (descent : Descent catalog query name relation target child)
    (rest : List String) : nodeAt catalog (name :: rest) query = nodeAt catalog rest child := by
  rw [nodeAt, descent.step]
  exact congrArg _ descent.found

/-- The node at the end of a resolved chain is the present one with the nodes below it, or a fresh
one. -/
theorem selectionAt?_nodeAt {chain : List String} {query : Query} (mirrors : query.Mirrors catalog)
    (reached : (catalog.reach? query.selection chain).isSome) (rest : List String) :
    (nodeAt catalog chain query).selectionAt? rest =
      if rest = [] then (query.selectionAt? chain).or (catalog.reach? query.selection chain)
      else query.selectionAt? (chain ++ rest) := by
  induction chain generalizing query with
  | nil =>
    split
    · next here =>
      subst here
      rfl
    · rfl
  | cons name others ih =>
    obtain ⟨relation, target, child, descent⟩ := mirrors.descent_of_reach? reached
    have childReached := (descent.isSome_reach? others).trans reached
    rw [descent.nodeAt_cons, ih descent.mirrors childReached]
    split
    · exact descent.selectionAt?_or_reach? others
    · next further =>
      have more : others ++ rest ≠ [] := fun none => further (List.append_eq_nil_iff.1 none).2
      rw [List.cons_append, descent.selectionAt? more]

/-- The node at the end of a resolved chain mirrors the catalog, and below the query its rows are those
that the chain leads to. -/
theorem nodeAt_spec {chain : List String} {query : Query} (mirrors : query.Mirrors catalog)
    {reached : Selection} (leads : catalog.reach? query.selection chain = some reached) :
    (nodeAt catalog chain query).Mirrors catalog ∧
      (nodeAt catalog chain query).selection.bare = reached.bare := by
  induction chain generalizing query with
  | nil => exact ⟨mirrors, congrArg Selection.bare (Option.some.inj leads)⟩
  | cons name rest ih =>
    obtain ⟨relation, target, child, descent⟩ :=
      mirrors.descent_of_reach? (Option.isSome_iff_exists.2 ⟨reached, leads⟩)
    rw [descent.reach?] at leads
    rw [descent.nodeAt_cons]
    cases rest with
    | nil =>
      rw [← Option.some.inj leads, Selection.bare_ofRelation]
      exact ⟨descent.mirrors, descent.rows⟩
    | cons next others =>
      rw [← Catalog.reach?_congr descent.entity (List.cons_ne_nil next others)] at leads
      exact ih descent.mirrors leads

/-- The result of making `configured` of the node at the end of a chain. -/
structure ConfiguredAt (catalog : Catalog) (chain : List String) (query configured result : Query) :
    Prop where
  /-- The result mirrors the catalog. -/
  mirrors : result.Mirrors catalog
  /-- The rows are the same. -/
  bare : result.selection.bare = query.selection.bare
  /-- From the end of the chain on, the nodes are the configured ones; on the way to it, they are
  the present or fresh ones; elsewhere they are the present ones. -/
  selectionAt : ∀ other, result.selectionAt? other =
    if chain <+: other then configured.selectionAt? (other.drop chain.length)
    else if other <+: chain then
      (query.selectionAt? other).or (catalog.reach? query.selection other)
    else query.selectionAt? other

/-- Configuring a node under a child is configuring it under the query. -/
theorem ConfiguredAt.cons {selection : Selection} {includes result : List (Relation × Query)}
    (mirrors : (Query.node selection includes).Mirrors catalog) {name : String} {relation : Relation}
    {target : Entity} {rest : List String} {child configured childResult : Query}
    (descent : Descent catalog (.node selection includes) name relation target child)
    (below : ConfiguredAt catalog rest child configured childResult)
    (look : ∀ other, result.find? (fun included => included.1.name = other) =
      if other = name then some (relation, childResult)
      else includes.find? fun included => included.1.name = other)
    (names : result.map includedName = (if name ∈ includes.map includedName
      then includes.map includedName else includes.map includedName ++ [name]))
    (members : ∀ included ∈ result, included = (relation, childResult) ∨ included ∈ includes) :
    ConfiguredAt catalog (name :: rest) (.node selection includes) configured
      (.node selection result) := by
  obtain ⟨distinct, known, mirrorsBelow⟩ := mirrors
  refine ⟨.node ?_ (fun included member => ?_) (fun included member => ?_), rfl, fun other => ?_⟩
  · rw [names]
    split
    · exact distinct
    · next absent =>
      refine List.nodup_append.2 ⟨distinct, List.pairwise_singleton _ name, ?_⟩
      rintro present member _ fresh rfl
      exact absent (List.mem_singleton.1 fresh ▸ member)
  · rcases members included member with rfl | member
    · refine ⟨target, ?_, below.bare.trans descent.rows⟩
      rw [includedName, Catalog.name_of_step? descent.step]
      exact descent.step
    · exact known included member
  · rcases members included member with rfl | member
    · exact below.mirrors
    · exact mirrorsBelow included member
  · cases other with
    | nil =>
      rw [if_neg (by simp), if_pos List.nil_prefix]
      rfl
    | cons first others =>
      have child?_result : (Query.node selection result).child? first = if first = name
          then some childResult else (Query.node selection includes).child? first := by
        rw [child?_node, child?_node, look]
        split <;> rfl
      rw [selectionAt?_cons, child?_result]
      by_cases same : first = name
      · subst same
        rw [if_pos rfl, Option.bind_some, below.selectionAt]
        simp only [List.cons_prefix_cons, true_and, List.length_cons, List.drop_succ_cons]
        split
        · rfl
        · split
          · exact descent.selectionAt?_or_reach? others
          · next notBefore =>
            refine descent.selectionAt? ?_
            rintro rfl
            exact notBefore List.nil_prefix
      · have apart : ¬ (name :: rest <+: first :: others) ∧ ¬ (first :: others <+: name :: rest) := by
          simp only [List.cons_prefix_cons]
          exact ⟨fun both => same both.1.symm, fun both => same both.1⟩
        rw [if_neg same, if_neg apart.1, if_neg apart.2, selectionAt?_cons]

/-- The end of a resolved chain is reached: the configuration runs on the node there, and its answer is
returned. -/
theorem configureAt_of_reach? {configure : Query → α × Query}
    (keeps : ∀ node : Query, node.Mirrors catalog →
      (configure node).2.Mirrors catalog ∧ (configure node).2.selection.bare = node.selection.bare)
    {chain : List String} {query : Query} (mirrors : query.Mirrors catalog)
    (reached : (catalog.reach? query.selection chain).isSome) :
    ∃ result, configureAt catalog configure chain query =
        (some (configure (nodeAt catalog chain query)).1, result) ∧
      ConfiguredAt catalog chain query (configure (nodeAt catalog chain query)).2 result := by
  induction chain generalizing query with
  | nil =>
    have kept := keeps query mirrors
    refine ⟨(configure query).2, rfl, kept.1, kept.2, fun other => ?_⟩
    rw [if_pos List.nil_prefix]
    rfl
  | cons name rest ih =>
    obtain ⟨relation, target, child, descent⟩ := mirrors.descent_of_reach? reached
    have childReached := (descent.isSome_reach? rest).trans reached
    obtain ⟨childResult, computed, configured⟩ := ih descent.mirrors childReached
    obtain ⟨selection, includes⟩ := query
    obtain ⟨result, childComputed, lookups, names, members⟩ :=
      configureChild_find? descent.look (Catalog.name_of_step? descent.step) computed
    have step : catalog.step? selection.entity name = some (relation, target) := descent.step
    rw [descent.nodeAt_cons]
    refine ⟨.node selection result, ?_, configured.cons mirrors descent lookups names members⟩
    have childComputed : configureChild name (some (relation, ofRelation relation target))
      (configureAt catalog configure rest) includes = _ := childComputed
    simp only [configureAt, step, Option.map_some, childComputed]

/-- Including a relation is refused, or the configuration runs on the node at the end of the chain. -/
theorem configure?_cases (configure : Query → α × Query)
    (keeps : ∀ node : Query, node.Mirrors catalog →
      (configure node).2.Mirrors catalog ∧ (configure node).2.selection.bare = node.selection.bare)
    (chain : List String) {query : Query} (mirrors : query.Mirrors catalog) :
    query.configure? catalog chain configure = none ∨
      ∃ reached result, chain ≠ [] ∧ catalog.reach? query.selection chain = some reached ∧
        query.configure? catalog chain configure =
          some (some (configure (nodeAt catalog chain query)).1, result) ∧
        ConfiguredAt catalog chain query (configure (nodeAt catalog chain query)).2 result := by
  unfold configure?
  split
  · exact .inl rfl
  · next passes =>
    have known : chain ≠ [] ∧ catalog.resolves query.selection.entity chain = true := by simpa using passes
    have leads := known.2
    rw [Catalog.resolves_eq_isSome_reach?] at leads
    obtain ⟨reached, found⟩ := Option.isSome_iff_exists.1 leads
    obtain ⟨result, computed, configured⟩ := configureAt_of_reach? keeps mirrors leads
    exact .inr ⟨reached, result, known.1, found, congrArg some computed, configured⟩

/-- What is included under a name, a fresh query where nothing is and the catalog knows the relation. -/
def included? (catalog : Catalog) (query : Query) (name : String) : Option (Relation × Query) :=
  (query.includes.find? fun included => included.1.name = name).or
    ((catalog.step? query.selection.entity name).map fun found =>
      (found.1, ofRelation found.1 found.2))

/-- The node at the end of a chain, present or fresh; none where the chain breaks off. -/
def reached? (catalog : Catalog) : List String → Query → Option Query
  | [], query => some query
  | name :: rest, query =>
    (included? catalog query name).bind fun included => reached? catalog rest included.2

/-- In a query that mirrors the catalog the end of a resolved chain is reached. -/
theorem Mirrors.reached? {chain : List String} {query : Query} (mirrors : query.Mirrors catalog)
    (leads : (catalog.reach? query.selection chain).isSome) :
    Query.reached? catalog chain query = some (nodeAt catalog chain query) := by
  induction chain generalizing query with
  | nil => rfl
  | cons name rest ih =>
    obtain ⟨relation, target, child, descent⟩ := mirrors.descent_of_reach? leads
    have found : included? catalog query name = some (relation, child) := by
      rw [included?, descent.step]
      exact descent.look
    rw [Query.reached?, found, descent.nodeAt_cons]
    exact ih descent.mirrors ((descent.isSome_reach? rest).trans leads)

/-- What is included under a name has that name. -/
theorem name_of_included? {query child : Query} {name : String} {relation : Relation}
    (found : included? catalog query name = some (relation, child)) : relation.name = name := by
  rcases Option.or_eq_some_iff.1 found with present | ⟨-, fresh⟩
  · exact name_of_find? present
  · obtain ⟨⟨own, target⟩, step, same⟩ := Option.map_eq_some_iff.1 fresh
    obtain ⟨rfl, -⟩ := Prod.mk.inj same
    exact Catalog.name_of_step? step

/-- Where nothing has the name and nothing is included under it, nothing is configured. -/
theorem configureChild_absent {name : String} {fresh : Option (Relation × Query)}
    (configure : Query → Option α × Query) {includes : List (Relation × Query)}
    (absent : (includes.find? fun included => included.1.name = name).or fresh = none) :
    configureChild name fresh configure includes = (none, includes) := by
  induction includes with
  | nil =>
    have nothing : fresh = none := absent
    simp [configureChild, nothing]
  | cons first rest ih =>
    by_cases here : first.1.name = name
    · simp [here] at absent
    · rw [List.find?_cons_of_neg (by simpa using here)] at absent
      simp [configureChild, if_neg here, ih absent]

/-- Configuring the end of a longer chain configures the query included under its first name. -/
theorem configureAt_cons (catalog : Catalog) (configure : Query → α × Query) (name : String)
    (rest : List String) (query : Query) : configureAt catalog configure (name :: rest) query =
      Prod.map id (node query.selection) (configureChild name
        ((catalog.step? query.selection.entity name).map fun found =>
          (found.1, ofRelation found.1 found.2)) (configureAt catalog configure rest)
          query.includes) := by
  obtain ⟨selection, includes⟩ := query
  rfl

/-- The configuration answers for the node at the end of the chain, and not at all where the chain breaks
off. -/
theorem fst_configureAt (configure : Query → α × Query) (chain : List String) (query : Query) :
    (configureAt catalog configure chain query).1 =
      (reached? catalog chain query).map fun node => (configure node).1 := by
  induction chain generalizing query with
  | nil => rfl
  | cons name rest ih =>
    rw [configureAt_cons, reached?]
    cases found : included? catalog query name with
    | none => rw [configureChild_absent _ found]; rfl
    | some included =>
      obtain ⟨relation, child⟩ := included
      have below : configureAt catalog configure rest child = (_, _) := rfl
      rw [configureChild_eq_place found (name_of_included? found) below]
      exact ih child

/-- Where what is made of the node at the end of a chain includes the same and reads the same rows, that node alone
has changed; the nodes on the way are the present or fresh ones, and every other node is as it was. -/
theorem ConfiguredAt.selectionAt?_of_sameTree {chain : List String} {query made result : Query}
    (mirrors : query.Mirrors catalog) (reached : (catalog.reach? query.selection chain).isSome)
    (configured : ConfiguredAt catalog chain query made result)
    (same : made.SameTree (nodeAt catalog chain query)) (other : List String) :
    result.selectionAt? other =
      if other = chain then some made.selection
      else if other <+: chain then
        (query.selectionAt? other).or (catalog.reach? query.selection other)
      else query.selectionAt? other := by
  rw [configured.selectionAt]
  by_cases beyond : chain <+: other
  · obtain ⟨rest, rfl⟩ := beyond
    rw [if_pos (List.prefix_append chain rest), List.drop_left]
    by_cases here : rest = []
    · subst here
      rw [if_pos (List.append_nil chain)]
      rfl
    · have apart : chain ++ rest ≠ chain := fun same => here (List.append_right_eq_self.1 same)
      have notBefore : ¬ chain ++ rest <+: chain := fun before =>
        apart (before.eq_of_length_le (by simp))
      rw [if_neg apart, if_neg notBefore, same.selectionAt? here, selectionAt?_nodeAt mirrors reached,
        if_neg here]
  · have apart : other ≠ chain := fun same => beyond (same ▸ List.prefix_refl chain)
    rw [if_neg beyond, if_neg apart]

/-! ### Every node -/

/-- What is asked of the rows has a property at every node. -/
def EveryNode (property : Selection → Prop) (query : Query) : Prop :=
  ∀ chain selection, query.selectionAt? chain = some selection → property selection

namespace EveryNode

variable {property : Selection → Prop} {query : Query}

/-- Changing what is asked of the rows of the node itself keeps what every node has, if it has it then. -/
theorem mapSelection (every : query.EveryNode property) {change : Selection → Selection}
    (changed : property query.selection → property (change query.selection)) :
    (query.mapSelection change).EveryNode property := by
  intro chain selection found
  rw [selectionAt?_mapSelection] at found
  split at found
  · obtain rfl := Option.some.inj found
    exact changed (every [] query.selection rfl)
  · exact every chain selection found

/-- What every node has, and what fresh nodes have, a node that is there or would be there has. -/
theorem of_or_reach? (every : query.EveryNode property)
    (fresh : ∀ relation target, property (.ofRelation relation target)) {chain : List String}
    {selection : Selection}
    (found : (query.selectionAt? chain).or (catalog.reach? query.selection chain) = some selection) :
    property selection := by
  rcases Option.or_eq_some_iff.1 found with present | ⟨absent, made⟩
  · exact every chain selection present
  · have further : chain ≠ [] := by
      rintro rfl
      exact nomatch absent
    obtain ⟨_, _, relation, target, -, rfl⟩ := Catalog.step_of_reach? made further
    exact fresh relation target

/-- What every node of a query has, the nodes from the end of a resolved chain on have. -/
theorem nodeAt (every : query.EveryNode property) (mirrors : query.Mirrors catalog)
    (fresh : ∀ relation target, property (.ofRelation relation target)) {chain : List String}
    (reached : (catalog.reach? query.selection chain).isSome) :
    (nodeAt catalog chain query).EveryNode property := by
  intro rest selection found
  rw [selectionAt?_nodeAt mirrors reached] at found
  split at found
  · exact every.of_or_reach? fresh found
  · exact every _ selection found

/-- What every node of a query and of a configured node has, every node of the result has. -/
theorem configuredAt (every : query.EveryNode property)
    (fresh : ∀ relation target, property (.ofRelation relation target)) {chain : List String}
    {configured result : Query} (made : configured.EveryNode property)
    (placed : ConfiguredAt catalog chain query configured result) : result.EveryNode property := by
  intro other selection found
  rw [placed.selectionAt] at found
  split at found
  · exact made _ selection found
  · split at found
    · exact every.of_or_reach? fresh found
    · exact every other selection found

end EveryNode

end ResourceQuery.Query
