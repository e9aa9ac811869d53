import ResourceQuery.Http.Response
import ResourceQuery.Proofs.Parameter.LastValues
import ResourceQuery.Proofs.Service.FieldProjection

/-!
# Pages tile a collection

Of the rows that a statement lists a page has a window (`Service.page_of_listed`), and windows one after
another are the whole list (`flatMap_window`). So requests that differ in their offset alone, each a number
of whole pages, get every row once and in its place (`pages_tile`): neither the reading of the numerals, the
bounds on limits, the counting of rows nor the content range loses or repeats one.

That takes a limit and an offset with names of their own, and operations that neither include relations nor choose
columns where no fields are asked for (`Service.PlainRoot`); otherwise pages may overlap or lack members
(`pages_that_do_not_tile`).
-/
namespace ResourceQuery

/-! ### Windows -/

section Windows

variable {α : Type}

/-- The rows of a page of some size. -/
def window (size page : Nat) (rows : List α) : List α := (rows.drop (page * size)).take size

/-- A page is full unless the rows end on it or before it. -/
theorem length_window (size page : Nat) (rows : List α) :
    (window size page rows).length = min size (rows.length - page * size) := by
  rw [window, List.length_take, List.length_drop]

/-- Pages one after another are the rows up to the end of the last page. -/
theorem flatMap_window (size pages : Nat) (rows : List α) :
    ((List.range pages).flatMap fun page => window size page rows) = rows.take (pages * size) := by
  induction pages with
  | zero => rw [Nat.zero_mul]; rfl
  | succ pages ih =>
    rw [List.range_succ, List.flatMap_append, ih, List.flatMap_singleton, window, Nat.succ_mul,
      ← List.take_add]

/-- Pages one after another are all rows once there are enough of them. -/
theorem flatMap_window_of_le {size pages : Nat} {rows : List α} (enough : rows.length ≤ pages * size) :
    ((List.range pages).flatMap fun page => window size page rows) = rows := by
  rw [flatMap_window, List.take_of_length_le enough]

/-- The positions on a page go from its first row to its last. -/
theorem window_range (size page total : Nat) : window size page (List.range total) =
    List.range' (page * size) (min size (total - page * size)) := by
  refine List.ext_getElem ?_ fun position before after => ?_
  · rw [length_window, List.length_range, List.length_range']
  · simp [window]

end Windows

/-! ### Rows with columns and with fields -/

namespace Json

/-- A row has the members that the columns select. -/
theorem select_eq_keep (selection : Selection) {row : Json} (shape : row.IsObject) :
    row.select selection.columns = row.keep (KeepRule.atRoot selection.selects) := by
  unfold select Selection.selects
  cases selection.columns with
  | none => exact (keep_of_always (fun chain name => by simp [KeepRule.atRoot]) row).symm
  | some names => exact project_eq_keep names shape

/-- A row with the fields named, the whole row where none are. -/
def withFields (fields : List String) (row : Json) : Json :=
  if fields.isEmpty then row else row.project fields

/-- A row has the members that the fields name, and all where they name none. -/
theorem withFields_eq_keep (fields : List String) {row : Json} (shape : row.IsObject) :
    row.withFields fields =
      row.keep (KeepRule.atRoot fun name => fields.isEmpty || fields.contains name) := by
  unfold withFields
  cases fields.isEmpty with
  | true => exact (keep_of_always (fun chain name => by simp [KeepRule.atRoot]) row).symm
  | false => exact project_eq_keep fields shape

end Json

/-- A database keeps, for the table, predicates and order of a selection, a list of rows: it gives the part
of it that a window asks for, with the columns listed, and counts the whole. -/
structure ListsRows (answer : Statement → Except DatabaseError (List Json)) (selection : Selection)
    (listed : List Json) : Prop where
  /-- The rows are objects. -/
  objects : ∀ row ∈ listed, row.IsObject
  /-- A window of the rows. -/
  rows : ∀ columns limit offset, answer (.rows columns selection.table selection.conditions
    selection.orders (some limit) (some offset)) =
      .ok (((listed.drop offset).take limit).map (Json.select columns))
  /-- The number of rows. -/
  count : answer (.count selection.table selection.conditions) =
    .ok [.ofMembers [("count", .natural listed.length)]]

namespace ListsRows

variable {σ : Type} {answer : Statement → Except DatabaseError (List Json)} {selection : Selection}
  {listed : List Json} (lists : ListsRows answer selection listed)

include lists

/-- The rows of a selection with a window are loaded. -/
theorem load {size first : Nat} (limit : selection.limit = some size) (offset : selection.offset = some first) :
    (Database.answering answer : Database σ).load (.node selection []) =
      settled (.ok (((listed.drop first).take size).map (Json.select selection.columns))) := by
  have statement : answer (selection.filterBy []).rowsStatement =
      .ok (((listed.drop first).take size).map (Json.select selection.columns)) := by
    rw [Selection.filterBy_nil, ← lists.rows, ← limit, ← offset]
    rfl
  show settled (answer (selection.filterBy []).rowsStatement) >>= _ = _
  rw [statement]
  rfl

/-- The rows of a selection are counted, as long as their number is an integer of 64 bits. -/
theorem total (countable : (listed.length : Int) ≤ Text.int64Max) :
    (Database.answering answer : Database σ).total (.node selection []) = settled (.ok listed.length) :=
  Database.total_answering lists.count countable

end ListsRows

namespace Service

variable {service : Service} {σ : Type}

/-- The operations of the root include no relations with a selection, and without fields they leave it every
column. -/
structure PlainRoot (service : Service) (selection : Selection) : Prop where
  /-- No relations are included. -/
  includes : (service.operate .root (.node selection [])).includes = []
  /-- Without fields every column is selected. -/
  columns : service.request.fields .root = [] →
    (service.operate .root (.node selection [])).selection.columns = none

/-- Where operations only add, the root of a selection of every column is plain. -/
theorem PlainRoot.of_appendOnly [service.registry.AppendOnly] {selection : Selection}
    (every : selection.columns = none) : service.PlainRoot selection := by
  constructor
  · rw [operate, Registry.sortAll_eq, Registry.filterAll_eq]
    rfl
  · intro _
    rw [operate, Registry.sortAll_eq, Registry.filterAll_eq]
    exact every

/-- Narrowing changes the columns and sets the window. -/
theorem narrow_eq (service : Service) (path : Path) (selection : Selection) : ∃ columns,
    service.narrow path selection = { selection with
      columns := columns
      offset := some (service.request.offset path)
      limit := some (service.request.limit path) } := by
  obtain ⟨columns, shape⟩ := selection.restrictTo_eq (service.request.fields path)
  refine ⟨columns, ?_⟩
  rw [narrow, shape]
  rfl

/-- Without fields narrowing keeps the columns. -/
theorem columns_narrow {path : Path} (unnamed : service.request.fields path = []) (selection : Selection) :
    (service.narrow path selection).columns = selection.columns := by
  rw [narrow, unnamed]
  rfl

/-- What is left of a row with the columns selected are the fields. -/
theorem strip_select {selection : Selection}
    (every : service.request.fields .root = [] → selection.columns = none) {row : Json} (shape : row.IsObject) :
    (Surplus.node (forced (service.request.fields .root) selection) []).strip
      (row.select (service.narrow .root selection).columns) = row.withFields (service.request.fields .root) := by
  rw [Json.select_eq_keep _ shape, Surplus.strip_eq_keep, Json.keep_keep, Json.withFields_eq_keep _ shape]
  congr 1
  funext chain name
  cases chain with
  | cons first rest => simp [KeepRule.atRoot, Surplus.rule, Surplus.fieldsAt_leaf, Path.root]
  | nil =>
    have stays : (Surplus.node (forced (service.request.fields .root) selection) []).rule [] name =
        !(forced (service.request.fields .root) selection).contains name := rfl
    rw [stays]
    show ((service.narrow .root selection).selects name && _) =
      ((service.request.fields .root).isEmpty || (service.request.fields .root).contains name)
    by_cases unnamed : service.request.fields .root = []
    · have all : (service.narrow .root selection).selects name = true := by
        rw [Selection.selects, columns_narrow unnamed, every unnamed]
      simp [unnamed, all, forced]
    · have present : (service.request.fields .root).isEmpty = false := by simpa using unnamed
      rw [present, Bool.false_or, Bool.eq_iff_iff, Bool.and_eq_true, selects_narrow unnamed, Bool.not_eq_true',
        ← Bool.not_eq_true, List.contains_iff_mem, mem_forced, List.contains_iff_mem]
      by_cases asked : name ∈ service.request.fields .root
      · simp [asked]
      · simp [asked, unnamed]

/-- The finished plan of a page without relations. -/
theorem finish_pagePlan_alone (alone : service.request.relations = []) {selection : Selection}
    (plain : service.PlainRoot selection) : (service.pagePlan (.node selection [])).finish =
      ⟨.node (service.arrange .root selection) [], .node (forced (service.request.fields .root)
        (service.operate .root (.node selection [])).selection) []⟩ := by
  have operated : service.operate .root (.node selection []) =
      .node (service.operate .root (.node selection [])).selection [] := by
    have whole := Query.node_selection_includes (service.operate .root (.node selection []))
    rw [plain.includes] at whole
    exact whole.symm
  rw [pagePlan, withRelations, alone, List.foldl_nil, configure_ofQuery, arrange]
  generalize service.operate .root (.node selection []) = query at operated
  rw [operated]
  rfl

/-- A page of rows without relations has a window of the listed rows, with the fields asked for, and says how
many there are on it and in all. -/
theorem page_of_listed {answer : Statement → Except DatabaseError (List Json)} {selection : Selection}
    {listed : List Json} (plain : service.PlainRoot selection) (alone : service.request.relations = [])
    (lists : ListsRows answer (service.arrange .root selection) listed)
    (countable : (listed.length : Int) ≤ Text.int64Max) :
    service.page (Database.answering answer : Database σ).rowSource (.node selection []) =
      pure ⟨min (service.request.limit .root) (listed.length - service.request.offset .root),
        service.request.limit .root, service.request.offset .root, listed.length,
        ((listed.drop (service.request.offset .root)).take (service.request.limit .root)).map
          (Json.withFields (service.request.fields .root))⟩ := by
  generalize offset : service.request.offset .root = first
  generalize limit : service.request.limit .root = size
  have loaded : (Database.answering answer : Database σ).rowSource.rows
      (.node (service.arrange .root selection) []) = settled (.ok
        (((listed.drop first).take size).map (Json.select (service.arrange .root selection).columns))) :=
    lists.load (congrArg some limit) (congrArg some offset)
  have counted : (Database.answering answer : Database σ).rowSource.total
      (.node (service.arrange .root selection) []) = settled (.ok listed.length) := lists.total countable
  have stripped : (((listed.drop first).take size).map
      (Json.select (service.arrange .root selection).columns)).map
        (Surplus.node (forced (service.request.fields .root)
          (service.operate .root (.node selection [])).selection) []).strip =
      ((listed.drop first).take size).map (Json.withFields (service.request.fields .root)) := by
    rw [List.map_map]
    refine List.map_congr_left fun row member => strip_select plain.columns ?_
    exact lists.objects row (List.mem_of_mem_drop (List.mem_of_mem_take member))
  rw [page_eq_bind, finish_pagePlan_alone alone plain, loaded, ofSession_ok_bind, counted, ofSession_ok_bind,
    stripped, List.length_map, List.length_take, List.length_drop, offset, limit]

end Service

/-! ### Requests for one page after another -/

/-- Requests that ask for pages of one size, each for the page of its number, and are otherwise alike. -/
structure PageRequests (names : ParameterNames) (size : Nat) (pairs : Nat → List (String × String)) :
    Prop where
  /-- Every request asks for the size as its limit. -/
  limit : ∀ page, names.lastValue? .limit (pairs page) = some (toString size)
  /-- The offset of a request is the rows on the pages before its own. -/
  offset : ∀ page, names.lastValue? .offset (pairs page) = some (toString (page * size))
  /-- Nothing else differs. -/
  others : ∀ page role, role ≠ .limit → role ≠ .offset →
    names.lastValue? role (pairs page) = names.lastValue? role (pairs 0)

namespace PageRequests

variable {settings : Settings} {supplied : ParameterSet} {size : Nat}
  {pairs : Nat → List (String × String)} (requests : PageRequests settings.names size pairs)

include requests

/-- The requests ask for the same fields, filters, orders and relations. -/
theorem asked_alike (page : Nat) :
    (Request.ofPairs settings supplied (pairs page)).fields =
      (Request.ofPairs settings supplied (pairs 0)).fields ∧
    (Request.ofPairs settings supplied (pairs page)).filters =
      (Request.ofPairs settings supplied (pairs 0)).filters ∧
    (Request.ofPairs settings supplied (pairs page)).sort =
      (Request.ofPairs settings supplied (pairs 0)).sort ∧
    (Request.ofPairs settings supplied (pairs page)).relations =
      (Request.ofPairs settings supplied (pairs 0)).relations := by
  have alike := requests.others page
  have fields := alike .fields (by decide) (by decide)
  have filter := alike .filter (by decide) (by decide)
  have sort := alike .sort (by decide) (by decide)
  have relations := alike .relations (by decide) (by decide)
  simp only [Request.ofPairs, ParameterSet.ofPairs_eq, fields, filter, sort, relations]
  exact ⟨rfl, rfl, rfl, rfl⟩

/-- The limit of the requests is the size, if the settings allow it. -/
theorem limit_eq (positive : 1 ≤ size) (allowed : (size : Int) ≤ max settings.limits.greatest 1)
    (wide : settings.limits.greatest ≤ Text.int64Max) (page : Nat) :
    (Request.ofPairs settings supplied (pairs page)).limit .root = size := by
  have small : (size : Int) ≤ Text.int64Max := by
    simp only [Text.int64Max] at wide ⊢
    omega
  have asked : (Request.ofPairs settings supplied (pairs page)).asked.limits.find? .root =
      some (size : Int) := by
    show (ParameterSet.ofPairs settings.names (pairs page)).limits.find? .root = _
    rw [ParameterSet.limits_ofPairs (requests.limit page), Parameter.find?_integers_numeral small,
      if_neg (by omega)]
  have bound : (Request.ofPairs settings supplied (pairs page)).greatestLimit =
      max settings.limits.greatest 1 := rfl
  rw [Request.limit, asked, bound]
  show (max 1 (min (size : Int) (max settings.limits.greatest 1))).toNat = size
  omega

/-- The offset of a request is the rows on the pages before its own, if these are an integer of 64 bits and
the server supplies no offset. -/
theorem offset_eq (unset : supplied.offsets.find? .root = none) {page : Nat}
    (small : ((page * size : Nat) : Int) ≤ Text.int64Max) :
    (Request.ofPairs settings supplied (pairs page)).offset .root = page * size := by
  have asked : (Request.ofPairs settings supplied (pairs page)).asked.offsets.find? .root =
      if page * size = 0 then none else some ((page * size : Nat) : Int) := by
    show (ParameterSet.ofPairs settings.names (pairs page)).offsets.find? .root = _
    rw [ParameterSet.offsets_ofPairs (requests.offset page), Parameter.find?_integers_numeral small]
  have silent : (Request.ofPairs settings supplied (pairs page)).supplied.offsets.find? .root = none := unset
  rw [Request.offset, asked, silent, Option.or_none]
  generalize page * size = before
  cases before with
  | zero => rw [if_pos (Eq.refl 0), Option.getD_none, Int.toNat_zero]
  | succ before => rw [if_neg (Nat.succ_ne_zero before), Option.getD_some, Int.toNat_natCast]

/-- The operations of the root are the same for all the requests. -/
theorem operate_alike (catalog : Catalog) (registry : Registry) (page : Nat) (query : Query) :
    Service.operate ⟨catalog, registry, .ofPairs settings supplied (pairs page)⟩ .root query =
      Service.operate ⟨catalog, registry, .ofPairs settings supplied (pairs 0)⟩ .root query := by
  obtain ⟨-, filters, sort, -⟩ := @asked_alike settings supplied size pairs requests page
  rw [Service.operate, Service.operate, filters, sort]

/-- What is plain for one of the requests is plain for all. -/
theorem plainRoot {catalog : Catalog} {registry : Registry} {selection : Selection}
    (plain : Service.PlainRoot ⟨catalog, registry, .ofPairs settings supplied (pairs 0)⟩ selection) (page : Nat) :
    Service.PlainRoot ⟨catalog, registry, .ofPairs settings supplied (pairs page)⟩ selection := by
  obtain ⟨fields, -⟩ := @asked_alike settings supplied size pairs requests page
  have alike := @operate_alike settings supplied size pairs requests catalog registry page (.node selection [])
  constructor
  · rw [alike]
    exact plain.includes
  · intro unnamed
    rw [alike]
    exact plain.columns (fields ▸ unnamed)

/-- What a database lists for one of the requests it lists for all. -/
theorem listsRows {catalog : Catalog} {registry : Registry} {selection : Selection} {listed : List Json}
    {answer : Statement → Except DatabaseError (List Json)}
    (lists : ListsRows answer (Service.arrange
      ⟨catalog, registry, .ofPairs settings supplied (pairs 0)⟩ .root selection) listed) (page : Nat) :
    ListsRows answer (Service.arrange
      ⟨catalog, registry, .ofPairs settings supplied (pairs page)⟩ .root selection) listed := by
  have alike := @operate_alike settings supplied size pairs requests catalog registry page (.node selection [])
  rw [Service.arrange] at lists ⊢
  rw [alike]
  generalize (Service.operate ⟨catalog, registry, .ofPairs settings supplied (pairs 0)⟩ .root
    (.node selection [])).selection = own at lists
  obtain ⟨columns, first⟩ :=
    Service.narrow_eq ⟨catalog, registry, .ofPairs settings supplied (pairs 0)⟩ .root own
  obtain ⟨others, here⟩ :=
    Service.narrow_eq ⟨catalog, registry, .ofPairs settings supplied (pairs page)⟩ .root own
  rw [first] at lists
  rw [here]
  exact ⟨lists.objects, lists.rows, lists.count⟩

/-- The limit and the offset have names of their own. -/
theorem untaken : ¬ settings.names.Taken .limit ∧ ¬ settings.names.Taken .offset := by
  constructor
  · intro taken
    have last := requests.limit 0
    rw [ParameterNames.lastValue?_eq, if_pos taken] at last
    contradiction
  · intro taken
    have last := requests.offset 0
    rw [ParameterNames.lastValue?_eq, if_pos taken] at last
    contradiction

end PageRequests

/-- Where the limit and the offset have names of their own, requests that give them ask for one page after
another. -/
theorem pageRequests_of_untaken {names : ParameterNames} (limit : ¬ names.Taken .limit)
    (offset : ¬ names.Taken .offset) (size : Nat) : PageRequests names size fun page =>
      [(names.limit, toString size), (names.offset, toString (page * size))] := by
  have earlier : ∀ {role own : Role}, ¬ names.Taken own → role ∈ Role.all.takeWhile (· ≠ own) →
      names.nameOf role ≠ names.nameOf own := fun untaken before same => untaken ⟨_, before, same⟩
  have apart : names.limit ≠ names.offset := earlier offset (by decide : Role.limit ∈ _)
  refine ⟨fun page => ?_, fun page => ?_, fun page role unlike other => ?_⟩
  · rw [ParameterNames.lastValue?_eq, if_neg limit]
    simp [latest?, ParameterNames.nameOf, apart.symm]
  · rw [ParameterNames.lastValue?_eq, if_neg offset]
    simp [latest?, ParameterNames.nameOf]
  · have before : role ∈ Role.all.takeWhile (· ≠ .limit) ∧ role ∈ Role.all.takeWhile (· ≠ .offset) := by
      cases role with
      | limit => exact absurd rfl unlike
      | offset => exact absurd rfl other
      | _ => decide
    have beforeLimit : names.limit ≠ names.nameOf role := (earlier limit before.1).symm
    have beforeOffset : names.offset ≠ names.nameOf role := (earlier offset before.2).symm
    rw [ParameterNames.lastValue?_eq, ParameterNames.lastValue?_eq]
    simp [latest?, beforeLimit, beforeOffset]

/-! ### The content range of a page -/

namespace Http

/-- A header can hold two texts in a row if it can hold each. -/
theorem isHeaderValue_append {left right : String} (first : isHeaderValue left = true)
    (second : isHeaderValue right = true) : isHeaderValue (left ++ right) = true := by
  unfold isHeaderValue at first second ⊢
  rw [String.toList_append, List.all_append, first, second, Bool.and_self]

/-- A header can hold a numeral. -/
theorem isHeaderValue_numeral (value : Nat) : isHeaderValue (toString value) = true := by
  unfold isHeaderValue
  rw [Nat.toString_eq_repr, Nat.toList_repr, List.all_eq_true]
  intro character member
  have digit := Text.toNat_of_isDigit (Text.isDigit_of_mem_toDigits member)
  simp only [Bool.or_eq_true, Bool.and_eq_true, decide_eq_true_eq, bne_iff_ne, beq_iff_eq]
  omega

/-- A page that is not empty and whose rows are among those counted says where it begins and ends: the last
position is that of its last row. -/
theorem contentRange?_of_rows {unit : String} (representable : isHeaderValue unit = true)
    {offset count total : Nat} (present : 0 < count) (among : offset + count ≤ total)
    (countable : (total : Int) ≤ Text.int64Max) :
    contentRange? offset count total unit = some (unit ++ " " ++ toString offset ++ "-" ++
      toString (offset + (count - 1)) ++ "/" ++ toString total) := by
  have last : lastPosition offset count = offset + (count - 1) := by
    simp only [Text.int64Max] at countable
    simp only [lastPosition, greatestPosition]
    omega
  have range : contentRange offset count total unit = unit ++ " " ++ toString offset ++ "-" ++
      toString (offset + (count - 1)) ++ "/" ++ toString total := by
    have full : ¬ count = 0 := Nat.ne_of_gt present
    apply String.toList_injective
    simp only [contentRange, if_neg full, last, String.toList_append, String.toList_ofList,
      Nat.toString_eq_repr, Nat.toList_repr]
    simp
  have held : isHeaderValue (contentRange offset count total unit) = true := by
    rw [range]
    have space : isHeaderValue " " = true := by decide
    have dash : isHeaderValue "-" = true := by decide
    have slash : isHeaderValue "/" = true := by decide
    exact isHeaderValue_append (isHeaderValue_append (isHeaderValue_append (isHeaderValue_append
      (isHeaderValue_append (isHeaderValue_append representable space) (isHeaderValue_numeral _)) dash)
        (isHeaderValue_numeral _)) slash) (isHeaderValue_numeral _)
  rw [contentRange?]
  show (if isHeaderValue (contentRange offset count total unit) = true then _ else none) = _
  rw [if_pos held, range]

end Http

/-! ### Page after page -/

/-- The page of a number among pages of one size. -/
def Page.ofListed (fields : List String) (size : Nat) (listed : List Json) (page : Nat) : Page where
  count := min size (listed.length - page * size)
  limit := size
  offset := page * size
  total := listed.length
  data := (window size page listed).map (Json.withFields fields)

/-- Requests for one page after another get the listed rows, each once and in its place: every page holds its
window of the rows with the fields asked for and says where it stands, and the content ranges of the pages
that are not empty go through the positions of all rows. Operations may do anything but include relations with
the rows, and choose columns where no fields are asked for. -/
theorem pages_tile {catalog : Catalog} {registry : Registry} {settings : Settings} {supplied : ParameterSet}
    {size : Nat} {pairs : Nat → List (String × String)} {selection : Selection}
    {answer : Statement → Except DatabaseError (List Json)} {listed : List Json} {resource : String} {σ : Type}
    (requests : PageRequests settings.names size pairs) (positive : 1 ≤ size)
    (allowed : (size : Int) ≤ max settings.limits.greatest 1)
    (wide : settings.limits.greatest ≤ Text.int64Max) (unset : supplied.offsets.find? .root = none)
    (alone : (Request.ofPairs settings supplied (pairs 0)).relations = [])
    (plain : Service.PlainRoot ⟨catalog, registry, .ofPairs settings supplied (pairs 0)⟩ selection)
    (lists : ListsRows answer (Service.arrange
      ⟨catalog, registry, .ofPairs settings supplied (pairs 0)⟩ .root selection) listed)
    (countable : (listed.length : Int) ≤ Text.int64Max)
    (representable : Http.isHeaderValue resource = true) :
    let listedPage := Page.ofListed ((Request.ofPairs settings supplied (pairs 0)).fields .root) size listed
    (∀ page, ((page * size : Nat) : Int) ≤ Text.int64Max →
      Service.page ⟨catalog, registry, .ofPairs settings supplied (pairs page)⟩
        (Database.answering answer : Database σ).rowSource (.node selection []) = pure (listedPage page)) ∧
    (∀ pages, listed.length ≤ pages * size →
      ((List.range pages).flatMap fun page => (listedPage page).data) =
        listed.map (Json.withFields ((Request.ofPairs settings supplied (pairs 0)).fields .root))) ∧
    (∀ page, page * size < listed.length →
      (Http.Response.collection resource (listedPage page)).headers.lookup "content-range" =
        some (resource ++ " " ++ toString (page * size) ++ "-" ++
          toString (page * size + ((listedPage page).count - 1)) ++ "/" ++ toString listed.length)) ∧
    ∀ pages, listed.length ≤ pages * size →
      ((List.range pages).flatMap fun page => List.range' (page * size) (listedPage page).count) =
        List.range listed.length := by
  intro listedPage
  refine ⟨fun page small => ?answered, fun pages enough => ?whole, fun page inside => ?ranged,
    fun pages enough => ?covered⟩
  case answered =>
    obtain ⟨fields, -, -, relations⟩ := @PageRequests.asked_alike settings supplied size pairs requests page
    rw [Service.page_of_listed (requests.plainRoot plain page) (relations.trans alone)
      (requests.listsRows lists page) countable]
    show pure (Page.mk _ _ _ _ _) = _
    rw [requests.limit_eq positive allowed wide, requests.offset_eq unset small, fields]
    rfl
  case whole =>
    have rows := flatMap_window_of_le enough
    calc ((List.range pages).flatMap fun page => (listedPage page).data)
        = ((List.range pages).flatMap fun page => window size page listed).map (Json.withFields _) :=
          List.map_flatMap.symm
      _ = listed.map (Json.withFields _) := by rw [rows]
  case ranged =>
    have present : 0 < (listedPage page).count := by
      show 0 < min size (listed.length - page * size)
      omega
    have among : page * size + (listedPage page).count ≤ listed.length := by
      show page * size + min size (listed.length - page * size) ≤ listed.length
      omega
    have range := Http.contentRange?_of_rows representable present among countable
    show ((Http.Response.ofJson 206 (listedPage page).json).withHeader "content-range"
      (Http.contentRange? (page * size) (listedPage page).count listed.length resource)).headers.lookup _ = _
    rw [range]
    rfl
  case covered =>
    have positions : (fun page => List.range' (page * size) (listedPage page).count) =
        fun page => window size page (List.range listed.length) :=
      funext fun page => (window_range size page listed.length).symm
    rw [positions]
    exact flatMap_window_of_le (by rwa [List.length_range])

/-! ### Three people on pages of two -/

/-- The database that has some rows for every statement. -/
def everywhere (rows : List Json) : Statement → Except DatabaseError (List Json)
  | .rows columns _ _ _ limit offset =>
    let dropped := rows.drop (offset.getD 0)
    .ok (((limit.map dropped.take).getD dropped).map (Json.select columns))
  | .count _ _ => .ok [.ofMembers [("count", .natural rows.length)]]

/-- The rows are listed for every selection. -/
theorem listsRows_everywhere {rows : List Json} (objects : ∀ row ∈ rows, row.IsObject)
    (selection : Selection) : ListsRows (everywhere rows) selection rows :=
  ⟨objects, fun _ _ _ => rfl, rfl⟩

/-- Three people. -/
def threePeople : List Json := [
  .ofMembers [("id", .natural 1), ("name", .string "Ada")],
  .ofMembers [("id", .natural 2), ("name", .string "Bea")],
  .ofMembers [("id", .natural 3), ("name", .string "Cid")]]

/-- The request for the names on a page of two people. -/
def twoNames (page : Nat) : List (String × String) :=
  [("offset", toString (page * 2)), ("fields", "name"), ("limit", "2")]

/-- The requests for the names are alike but for their offset. -/
theorem pageRequests_twoNames : PageRequests Settings.standard.names 2 twoNames where
  limit _ := rfl
  offset _ := rfl
  others page role unlike other := by
    cases role with
    | limit => exact absurd rfl unlike
    | offset => exact absurd rfl other
    | _ => rfl

/-- A row of the three people is an object. -/
theorem isObject_of_mem_threePeople {row : Json} (member : row ∈ threePeople) : row.IsObject := by
  simp only [threePeople, List.mem_cons, List.not_mem_nil, or_false] at member
  obtain rfl | rfl | rfl := member <;> exact Json.isObject_ofMembers _

/-- Three people fill a page of two and half of another. -/
theorem three_people_tile :
    let service (page : Nat) : Service := ⟨.empty, .empty, .ofPairs .standard .empty (twoNames page)⟩
    let people : Selection := .ofEntity (Entity.ofTable "people" "people")
    let first : Page :=
      ⟨2, 2, 0, 3, [.object [("name", .string "Ada")], .object [("name", .string "Bea")]]⟩
    let second : Page := ⟨1, 2, 2, 3, [.object [("name", .string "Cid")]]⟩
    PageRequests Settings.standard.names 2 twoNames ∧
    (service 0).PlainRoot people ∧
    ListsRows (everywhere threePeople) ((service 0).arrange .root people) threePeople ∧
    (service 0).page (Database.answering (everywhere threePeople) : Database Unit).rowSource
      (.node people []) = pure first ∧
    (service 1).page (Database.answering (everywhere threePeople) : Database Unit).rowSource
      (.node people []) = pure second ∧
    (Http.Response.collection "people" first).headers.lookup "content-range" = some "people 0-1/3" ∧
    (Http.Response.collection "people" second).headers.lookup "content-range" = some "people 2-2/3" := by
  intro service people first second
  have plain : (service 0).PlainRoot people := ⟨rfl, fun _ => rfl⟩
  have lists : ListsRows (everywhere threePeople) ((service 0).arrange .root people) threePeople :=
    listsRows_everywhere (fun _ => isObject_of_mem_threePeople) _
  obtain ⟨answered, -, ranged, -⟩ := @pages_tile .empty .empty .standard .empty 2 twoNames people
    (everywhere threePeople) threePeople "people" Unit pageRequests_twoNames (by decide) (by decide) (by decide)
    rfl rfl plain lists (by decide) (by decide)
  exact ⟨pageRequests_twoNames, plain, lists, answered 0 (by decide), answered 1 (by decide),
    ranged 0 (by decide), ranged 1 (by decide)⟩

/-- Settings in which the limit and the offset have one name, which is then that of the limit. -/
def oneName : Settings where
  names := { ParameterNames.standard with limit := "page", offset := "page" }
  limits := Settings.standard.limits

/-- A filter that leaves the keys of people. -/
def keysOnly : FilterTable :=
  Operations.register .empty "brief"
    (.nullary fun query => query.mapSelection fun people => people.restrict.addColumn "id")

/-- A request for three people in brief. -/
def threeBriefly : Request where
  asked := {
    ParameterSet.empty with
    filters := SortedMap.empty.insert .root ⟨[("brief", [])]⟩
    limits := SortedMap.empty.insert .root 3 }
  supplied := .empty
  settings := .standard

/-- Pages do not tile where the limit and the offset have one name: the second page of one person is the first
once more. Nor do they where a filter chooses columns: the people on the only page of three lack their names,
though no fields were asked for. -/
theorem pages_that_do_not_tile :
    let people : Selection := .ofEntity (Entity.ofTable "people" "people")
    let again : Service := ⟨.empty, .empty, .ofPairs oneName .empty
      [(oneName.names.limit, toString 1), (oneName.names.offset, toString (1 * 1))]⟩
    let brief : Service := ⟨.empty, Registry.empty.setFilters "people" [keysOnly], threeBriefly⟩
    let answered (service : Service) :=
      service.page (Database.answering (everywhere threePeople) : Database Unit).rowSource (.node people [])
    ∃ first keys : Page, answered again = pure first ∧ first ≠ .ofListed [] 1 threePeople 1 ∧
      brief.request.fields .root = [] ∧ answered brief = pure keys ∧ keys ≠ .ofListed [] 3 threePeople 0 := by
  intro people again brief answered
  refine ⟨⟨1, 1, 0, 3, [.object [("id", .natural 1), ("name", .string "Ada")]]⟩,
    ⟨3, 3, 0, 3, [.object [("id", .natural 1)], .object [("id", .natural 2)], .object [("id", .natural 3)]]⟩,
    rfl, fun same => ?_, rfl, rfl, fun same => ?_⟩
  · exact absurd (congrArg Page.offset same) (by decide)
  · have named : (none : Option Json) = some (.string "Ada") :=
      congrArg (fun page : Page => page.data.head?.bind (Json.member? "name")) same
    contradiction

end ResourceQuery
