import ResourceQuery.Proofs.Query.Operations

/-!
# Including a relation touches one node

Including a relation looks up the node at the end of a chain, hands it to the configuration, and puts what this
makes of it in its place (`Query.graftAt`). What is put there is found there, the nodes on the way keep what is asked
of their rows and their relations in order, with at most the next one added, and all other nodes stay as they are
(`Query.Grafted`). In a query that grew by operations, all of this happens exactly when the catalog knows every
relation of the chain and its target, and nothing otherwise (`Query.eagerLoad_all_or_nothing`).
-/
namespace ResourceQuery.Query

variable {catalog : Catalog}

/-- The query with another one in place of the node at the end of a chain. -/
def graftAt (catalog : Catalog) (made : Query) : List String → Query → Query
  | [], _ => made
  | name :: rest, query =>
    match catalog.step? query.selection.entity name with
    | some (relation, target) =>
      node query.selection (place relation
        (graftAt catalog made rest ((query.child? name).getD (ofRelation relation target))) query.includes)
    | none => query

/-- Putting a query at the end of a longer chain puts it into the child, and that in its place. -/
theorem Descent.graftAt_cons {query child : Query} {name : String} {relation : Relation} {target : Entity}
    (descent : Descent catalog query name relation target child) (made : Query) (rest : List String) :
    graftAt catalog made (name :: rest) query =
      node query.selection (place relation (graftAt catalog made rest child) query.includes) := by
  rw [graftAt, descent.step, ← descent.found]

/-- Putting a query at the end of a longer chain changes the child of the first name and no other. -/
theorem Descent.child?_graftAt {query child : Query} {name : String} {relation : Relation} {target : Entity}
    (descent : Descent catalog query name relation target child) (made : Query) (rest : List String)
    (other : String) : (graftAt catalog made (name :: rest) query).child? other =
      if other = name then some (graftAt catalog made rest child) else query.child? other := by
  have named := Catalog.name_of_step? descent.step
  rw [descent.graftAt_cons, child?_node, find?_place (named ▸ descent.look), named]
  split <;> rfl

/-- Configuring the end of a resolved chain puts what the configuration makes of the node there in its place. -/
theorem configureAt_eq_graftAt {α : Type} (configure : Query → α × Query) {chain : List String} {query : Query}
    (mirrors : query.Mirrors catalog) (reached : (catalog.reach? query.selection chain).isSome) :
    configureAt catalog configure chain query = (some (configure (nodeAt catalog chain query)).1,
      graftAt catalog (configure (nodeAt catalog chain query)).2 chain query) := by
  induction chain generalizing query with
  | nil => rfl
  | cons name rest ih =>
    obtain ⟨relation, target, child, descent⟩ := mirrors.descent_of_reach? reached
    have below := ih descent.mirrors ((descent.isSome_reach? rest).trans reached)
    have placed := configureChild_eq_place descent.look (Catalog.name_of_step? descent.step) below
    rw [configureAt_cons, descent.step, descent.nodeAt_cons, descent.graftAt_cons]
    exact congrArg (Prod.map id _) placed

/-! ### What becomes of the nodes -/

/-- The node at the end of a chain: the one that is there, or where there is none a fresh one, of which nothing is
asked. -/
structure Stands (catalog : Catalog) (query : Query) (chain : List String) (node : Query) : Prop where
  /-- It is the one that is there. -/
  present : ∀ found, query.at? chain = some found → node = found
  /-- Where there is none it is that of the relation that the chain leads to. -/
  fresh : query.at? chain = none → ∃ relation target,
    catalog.reach? query.selection chain = some (.ofRelation relation target) ∧ node = ofRelation relation target

/-- What putting a query in place of the node at the end of a chain does to the nodes. -/
structure Grafted (catalog : Catalog) (chain : List String) (query made result : Query) : Prop where
  /-- The node at the end of the chain is what was put there, with the nodes below it. -/
  atEnd : ∀ rest, result.at? (chain ++ rest) = made.at? rest
  /-- The nodes on the way, the present or fresh ones, keep what is asked of their rows, and their relations in
  their order; the next relation of the chain is added last where it is missing. -/
  onWay : ∀ before name after, chain = before ++ name :: after → ∃ old new relation target,
    Stands catalog query before old ∧ catalog.step? old.selection.entity name = some (relation, target) ∧
      result.at? before = some new ∧ new.selection = old.selection ∧
      new.includes.map Prod.fst = if name ∈ old.includes.map includedName then old.includes.map Prod.fst
        else old.includes.map Prod.fst ++ [relation]
  /-- All other nodes stay as they are, with all that is included in them. -/
  elsewhere : ∀ other, ¬ chain <+: other → ¬ other <+: chain → result.at? other = query.at? other

/-- At the end of a resolved chain stands the node that a configuration is handed. -/
theorem Mirrors.stands {query : Query} (mirrors : query.Mirrors catalog) {chain : List String}
    (reached : (catalog.reach? query.selection chain).isSome) :
    Stands catalog query chain (nodeAt catalog chain query) := by
  induction chain generalizing query with
  | nil => exact ⟨fun found same => Option.some.inj same, fun none => nomatch none⟩
  | cons name rest ih =>
    obtain ⟨relation, target, child, descent⟩ := mirrors.descent_of_reach? reached
    rw [descent.nodeAt_cons]
    cases rest with
    | nil =>
      have found := descent.found
      have named : query.at? [name] = query.child? name := by
        rw [at?_cons]
        cases query.child? name <;> rfl
      refine ⟨fun own same => ?_, fun absent => ⟨relation, target, descent.reach? [], ?_⟩⟩
      · rw [← named, same] at found
        exact found.symm
      · rw [← named, absent] at found
        exact found.symm
    | cons next others =>
      have further : next :: others ≠ [] := List.cons_ne_nil next others
      obtain ⟨present, fresh⟩ := ih descent.mirrors ((descent.isSome_reach? _).trans reached)
      rw [descent.at? further] at present fresh
      refine ⟨present, fun absent => ?_⟩
      rw [descent.reach?, ← Catalog.reach?_congr descent.entity further]
      exact fresh absent

/-- Below the node that a configuration is handed, the nodes are those of the query. -/
theorem Mirrors.at?_nodeAt {query : Query} (mirrors : query.Mirrors catalog) {chain rest : List String}
    (reached : (catalog.reach? query.selection chain).isSome) (further : rest ≠ []) :
    (nodeAt catalog chain query).at? rest = query.at? (chain ++ rest) := by
  induction chain generalizing query with
  | nil => rfl
  | cons name others ih =>
    obtain ⟨relation, target, child, descent⟩ := mirrors.descent_of_reach? reached
    rw [descent.nodeAt_cons, ih descent.mirrors ((descent.isSome_reach? others).trans reached),
      descent.at? (List.append_ne_nil_of_right_ne_nil others further), List.cons_append]

/-- A query that is put at the end of a resolved chain is there. -/
theorem Mirrors.at?_graftAt {query : Query} (mirrors : query.Mirrors catalog) {chain : List String}
    (reached : (catalog.reach? query.selection chain).isSome) (made : Query) (rest : List String) :
    (graftAt catalog made chain query).at? (chain ++ rest) = made.at? rest := by
  induction chain generalizing query with
  | nil => rfl
  | cons name others ih =>
    obtain ⟨relation, target, child, descent⟩ := mirrors.descent_of_reach? reached
    rw [List.cons_append, at?_cons, descent.child?_graftAt, if_pos rfl]
    exact ih descent.mirrors ((descent.isSome_reach? others).trans reached)

/-- Of a node on the way only the next relation is added, if it is missing. -/
theorem Mirrors.exists_onWay {query : Query} (mirrors : query.Mirrors catalog) (made : Query)
    {before after : List String} {name : String}
    (reached : (catalog.reach? query.selection (before ++ name :: after)).isSome) :
    ∃ new relation target,
      catalog.step? (nodeAt catalog before query).selection.entity name = some (relation, target) ∧
      (graftAt catalog made (before ++ name :: after) query).at? before = some new ∧
      new.selection = (nodeAt catalog before query).selection ∧
      new.includes.map Prod.fst = if name ∈ (nodeAt catalog before query).includes.map includedName
        then (nodeAt catalog before query).includes.map Prod.fst
        else (nodeAt catalog before query).includes.map Prod.fst ++ [relation] := by
  induction before generalizing query with
  | nil =>
    obtain ⟨relation, target, child, descent⟩ := mirrors.descent_of_reach? reached
    have placed := map_fst_place relation (graftAt catalog made after child) query.includes
    rw [Catalog.name_of_step? descent.step] at placed
    exact ⟨_, relation, target, descent.step, congrArg some (descent.graftAt_cons made after), rfl, placed⟩
  | cons first others ih =>
    obtain ⟨relation, target, child, descent⟩ := mirrors.descent_of_reach? reached
    rw [List.cons_append, descent.nodeAt_cons, at?_cons, descent.child?_graftAt, if_pos rfl]
    exact ih descent.mirrors ((descent.isSome_reach? _).trans reached)

/-- Nodes that are neither on the way nor from its end on stay as they are. -/
theorem Mirrors.at?_graftAt_elsewhere {query : Query} (mirrors : query.Mirrors catalog) {chain other : List String}
    (reached : (catalog.reach? query.selection chain).isSome) (made : Query) (beyond : ¬ chain <+: other)
    (onWay : ¬ other <+: chain) : (graftAt catalog made chain query).at? other = query.at? other := by
  induction chain generalizing query other with
  | nil => exact absurd List.nil_prefix beyond
  | cons name rest ih =>
    obtain ⟨relation, target, child, descent⟩ := mirrors.descent_of_reach? reached
    cases other with
    | nil => exact absurd List.nil_prefix onWay
    | cons first others =>
      rw [at?_cons, descent.child?_graftAt]
      by_cases same : first = name
      · subst same
        rw [List.cons_prefix_cons, not_and] at beyond onWay
        have further : others ≠ [] := fun none => onWay rfl (none ▸ List.nil_prefix)
        rw [if_pos rfl, ← descent.at? further]
        exact ih descent.mirrors ((descent.isSome_reach? rest).trans reached) (beyond rfl) (onWay rfl)
      · rw [if_neg same]
        rfl

/-- Putting a query at the end of a resolved chain touches nothing else. -/
theorem Mirrors.grafted {query : Query} (mirrors : query.Mirrors catalog) {chain : List String}
    (reached : (catalog.reach? query.selection chain).isSome) (made : Query) :
    Grafted catalog chain query made (graftAt catalog made chain query) where
  atEnd := mirrors.at?_graftAt reached made
  onWay before name after split := by
    subst split
    obtain ⟨new, relation, target, step, there, asked, relations⟩ := mirrors.exists_onWay made reached
    have stands := mirrors.stands (Catalog.reach?_isSome_of_prefix (List.prefix_append before _) reached)
    exact ⟨_, new, relation, target, stands, step, there, asked, relations⟩
  elsewhere other beyond onWay := mirrors.at?_graftAt_elsewhere reached made beyond onWay

/-- Eager loading is all or nothing and touches one node. In a query that grew by operations from all rows of an
entity, it is refused exactly where the chain is empty or the catalog does not know every relation of it with its
target: then there is no answer of the configuration, and the query stays as it is. Otherwise the configuration runs
on the node at the end of the chain, a fresh one where there is none, which has the nodes below it that the query has
there; its answer is the answer, and what it makes of the node is put in its place. -/
theorem eagerLoad_all_or_nothing (catalog : Catalog) (entity : Entity) (edits : List Edit) (chain : List String) :
    let query := runEdits catalog edits (.ofEntity entity)
    (chain = [] ∨ ¬ catalog.Leads query.selection.entity chain →
      ∀ (α : Type) (configure : Query → α × Query), query.eagerLoad catalog chain configure = (none, query)) ∧
    (¬ (chain = [] ∨ ¬ catalog.Leads query.selection.entity chain) →
      ∃ (node : Query) (graft : Query → Query),
        Stands catalog query chain node ∧ (∀ rest, rest ≠ [] → node.at? rest = query.at? (chain ++ rest)) ∧
        (∀ (α : Type) (configure : Query → α × Query), query.eagerLoad catalog chain configure =
          (some (configure node).1, graft (configure node).2)) ∧
        ∀ made, Grafted catalog chain query made (graft made)) := by
  intro query
  have mirrors : query.Mirrors catalog := mirrors_runEdits catalog edits entity
  have refuses : (chain.isEmpty || !catalog.resolves query.selection.entity chain) = true ↔
      chain = [] ∨ ¬ catalog.Leads query.selection.entity chain := by
    rw [Bool.or_eq_true, List.isEmpty_iff, Bool.not_eq_true', ← Bool.not_eq_true, Catalog.resolves_iff_leads]
  constructor
  · intro refused α configure
    rw [eagerLoad, configure?, if_pos (refuses.2 refused), Option.getD_none]
  · intro accepted
    have known := accepted
    rw [not_or, Classical.not_not, ← Catalog.resolves_iff_leads, Catalog.resolves_eq_isSome_reach?] at known
    have reached := known.2
    refine ⟨nodeAt catalog chain query, fun made => graftAt catalog made chain query, mirrors.stands reached,
      fun rest further => mirrors.at?_nodeAt reached further, fun α configure => ?_, mirrors.grafted reached⟩
    rw [eagerLoad, configure?, if_neg (mt refuses.1 accepted), Option.getD_some,
      configureAt_eq_graftAt configure mirrors reached]

end ResourceQuery.Query
