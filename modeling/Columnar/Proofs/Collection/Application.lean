import Columnar.Proofs.Collection.Apply
import Columnar.Proofs.Collection.Selection
import Columnar.Proofs.Schema.Construction

/-!
# `Proofs.Collection.Application` — when a function can be applied

A function is applied in one of three ways, and each asks something else of the declared names and types. Once the
checks are passed nothing can go wrong: the fields of a sound collection are all its own and all have names, and no two
the same one. So the conditions of acceptance and the reasons for refusal leave no case out.

## Contents
- `Expr.IsMapping`, `mapNode_makes`: mapping nodes.
- `ApplyOptions.EntryAt`, `mappedSchema_eq`, `exists_entries`: the schema of fields that are mapped one by one.
- `Collection.TypesFit`, `Collection.NamesFit`: how many types and names there may be for that.
- `Collection.Expands`, `Collection.MapsEach`, `Collection.Yields`: what an application comes to.
- `Collection.AcceptsFunction`, `Collection.RefusesFunction`, `accepts_or_refuses`: what is asked of an application.
- `apply_makes`, `apply_of_refuses`: an application that is accepted, and one that is refused.
- `Applied.exprs`, `operands_of_apply_rows`, `operands_of_apply_columns`: what the nodes made are over.
-/

namespace Columnar

variable {catalog : Catalog} {heap : List Expr} {c : Collection} {f : MapFunction} {o : ApplyOptions}

/-! ## Nodes -/

/-- The expressions that an application has made. -/
def Applied.exprs : Applied → List Expr
  | sequence e => [e]
  | collection d => d.fields

/-- A node that maps its operands. -/
structure Expr.IsMapping (m : Mapping) (name : Option String) (t : ElementType) (sh : Shape) (os : List Expr)
    (e : Expr) : Prop where
  kind_eq : e.kind = .map m
  givenName_eq : e.givenName = name
  type_eq : e.type = t
  shape_eq : e.shape = sh
  operands_eq : e.operands = os

section

variable [Hasher] {m : Mapping} {t : ElementType} {sh : Shape} {os : List Expr}

theorem mapping_makes : (Build.node (.map m) t sh os).Makes (Expr.IsMapping m none t sh os) :=
  fun _ => ⟨_, Build.node_eq_ok.mpr rfl, rfl, rfl, rfl, rfl, rfl⟩

theorem Expr.IsMapping.rename_makes {e : Expr} {old : Option String} (h : e.IsMapping m old t sh os) (name : String) :
    (e.rename name).Makes (Expr.IsMapping m (some name) t sh os) :=
  fun _ => ⟨_, Expr.rename_eq_ok.mpr rfl, h.kind_eq, rfl, h.type_eq, h.shape_eq, h.operands_eq⟩

theorem Collection.mapNode_makes (name : String) :
    (mapNode m name t sh os).Makes (Expr.IsMapping m (some name) t sh os) :=
  mapping_makes.bind fun _ h => h.rename_makes name

end

/-! ## Entries -/

/-- How the field at a place is entered when it is mapped: under the name declared for the place, or its own if there
are no names; with the type declared for the place or for all, or its own if there are no types. -/
structure ApplyOptions.EntryAt (o : ApplyOptions) (i : Nat) (field : Expr) (entry : String × ElementType) : Prop where
  name : o.names[i]? = some entry.1 ∨ o.names = [] ∧ field.name? = some entry.1
  type : o.types[i]? = some entry.2 ∨ o.types = [entry.2] ∨ o.types = [] ∧ field.type = entry.2

namespace Collection

variable {checker : Checker} {i : Nat} {field : Expr} {fields : List Expr} {entries : List (String × ElementType)}

theorem mappedName_of_entryAt {entry : String × ElementType} (h : o.EntryAt i field entry) :
    mappedName checker o.names i field = .ok entry.1 := by
  unfold mappedName
  rcases h.name with hdeclared | ⟨hnone, hown⟩
  · rw [hdeclared, Option.some_or]
  · rw [hnone, hown]
    rfl

theorem mappedType_of_entryAt {entry : String × ElementType} (h : o.EntryAt i field entry) :
    mappedType o.types i field = entry.2 := by
  unfold mappedType
  rcases h.type with hdeclared | hsingle | ⟨hnone, hown⟩
  · split
    · next hnone =>
      rw [hnone] at hdeclared
      cases hdeclared
    · next t hsingle =>
      rw [hsingle] at hdeclared
      cases i with
      | zero =>
        cases hdeclared
        rfl
      | succ i => cases hdeclared
    · rw [hdeclared, Option.getD_some]
  · rw [hsingle]
  · rw [hnone]
    exact hown

/-- There is an entry for every place, if there are names for all places or none, and types for all, one or none. -/
theorem exists_entryAt (hnames : o.names = [] ∨ i < o.names.length) (htypes : o.types.length ≤ 1 ∨ i < o.types.length)
    (hnamed : ∃ n, field.name? = some n) : ∃ entry, o.EntryAt i field entry := by
  have hname : ∃ n, o.names[i]? = some n ∨ o.names = [] ∧ field.name? = some n := by
    rcases hnames with hnone | hlt
    · obtain ⟨n, hn⟩ := hnamed
      exact ⟨n, .inr ⟨hnone, hn⟩⟩
    · exact ⟨_, .inl (List.getElem?_eq_getElem hlt)⟩
  have htype : ∃ t, o.types[i]? = some t ∨ o.types = [t] ∨ o.types = [] ∧ field.type = t := by
    rcases htypes with hfew | hlt
    · match htypes : o.types with
      | [] => exact ⟨_, .inr (.inr ⟨rfl, rfl⟩)⟩
      | [t] => exact ⟨t, .inr (.inl rfl)⟩
      | t :: u :: ts => simp [htypes] at hfew
    · exact ⟨_, .inl (List.getElem?_eq_getElem hlt)⟩
  obtain ⟨n, hn⟩ := hname
  obtain ⟨t, ht⟩ := htype
  exact ⟨(n, t), hn, ht⟩

/-- The entries are added one after the other. -/
theorem mappedSchema_eq {schema : Schema}
    (h : List.Forall₂ (fun q entry => o.EntryAt q.2 q.1 entry) (fields.zipIdx i) entries) :
    mappedSchema checker o i schema fields = entries.foldlM (fun s p => s.push p.1 p.2) schema := by
  induction fields generalizing i schema entries with
  | nil =>
    cases h
    rfl
  | cons field fields ih =>
    rw [List.zipIdx_cons] at h
    cases h with
    | @cons _ entry _ entries hentry hrest =>
      rw [List.foldlM_cons, mappedSchema, mappedName_of_entryAt hentry, mappedType_of_entryAt hentry]
      show (schema.push entry.1 entry.2 >>= fun next => mappedSchema checker o (i + 1) next fields) = _
      simp only [ih hrest]

/-- There is no type, one for all fields, or one for each. -/
def TypesFit (c : Collection) (o : ApplyOptions) : Prop := o.types.length ≤ 1 ∨ o.types.length = c.fields.length

/-- There is no name, or one for each field. -/
def NamesFit (c : Collection) (o : ApplyOptions) : Prop := o.names = [] ∨ o.names.length = c.fields.length

theorem typesFit_iff : (decide (o.types.length ≤ 1) || o.types.length == c.fields.length) = true ↔ c.TypesFit o := by
  simp [TypesFit]

theorem namesFit_iff : (o.names.isEmpty || o.names.length == c.fields.length) = true ↔ c.NamesFit o := by
  simp [NamesFit]

/-- There are names, and a type for each. -/
theorem paired_iff : (!o.names.isEmpty && o.names.length == o.types.length) = true
    ↔ o.names ≠ [] ∧ o.names.length = o.types.length := by
  simp

/-- With names for all fields or none, the names entered are those declared or else those of the schema. -/
theorem names_of_entryAt (hc : c.Sound catalog heap) (hnames : c.NamesFit o)
    (h : List.Forall₂ (fun q entry => o.EntryAt q.2 q.1 entry) c.fields.zipIdx entries) :
    entries.map Prod.fst = if o.names = [] then c.schema.names else o.names := by
  by_cases hnone : o.names = []
  · have hown : List.Forall₂ (fun field entry => Expr.name? field = some entry.1) c.fields entries := by
      rw [← List.zipIdx_map_fst 0 c.fields, List.forall₂_map_left_iff]
      refine h.imp fun q entry hentry => ?_
      rcases hentry.name with hdeclared | ⟨_, hown⟩
      · rw [hnone] at hdeclared
        cases hdeclared
      · exact hown
    rw [if_pos hnone]
    refine List.map_injective_iff.mpr (Option.some_injective _) ?_
    rw [← map_name?_eq hown.flip]
    exact names_of_labels hc.labels
  · have hcount : o.names.length = c.fields.length := hnames.resolve_left hnone
    have hlength : entries.length = c.fields.length := by
      rw [← h.length_eq, List.length_zipIdx]
    rw [if_neg hnone]
    refine List.ext_getElem? fun i => ?_
    rw [List.getElem?_map]
    by_cases hlt : i < c.fields.length
    · have hfield : c.fields.zipIdx[i]? = some (c.fields[i], i) := by
        simp [hlt]
      obtain ⟨entry, hentry, hat⟩ := getElem?_of_forall₂ h hfield
      rw [hentry]
      exact (hat.name.resolve_right fun hown => hnone hown.1).symm
    · rw [List.getElem?_eq_none (by omega), List.getElem?_eq_none (by omega)]
      rfl

/-- The schema of fields that are mapped one by one is made of an entry for each. If names repeat, they are declared
names, because those of the fields do not. -/
theorem exists_entries (checker : Checker) (hc : c.Sound catalog heap) (hnames : c.NamesFit o) (htypes : c.TypesFit o) :
    ∃ entries, List.Forall₂ (fun q entry => o.EntryAt q.2 q.1 entry) c.fields.zipIdx entries
      ∧ mappedSchema checker o 0 .empty c.fields = Schema.ofFields entries
      ∧ (o.names.Nodup → (entries.map Prod.fst).Nodup)
      ∧ ∀ n, Schema.FirstRepeat o.names n → Schema.FirstRepeat (entries.map Prod.fst) n := by
  have hentry : ∀ q ∈ c.fields.zipIdx, ∃ entry, o.EntryAt q.2 q.1 entry := by
    rintro ⟨field, i⟩ hq
    have hplace : c.fields[i]? = some field := List.mk_mem_zipIdx_iff_getElem?.mp hq
    obtain ⟨hlt, _⟩ := List.getElem?_eq_some_iff.mp hplace
    obtain ⟨entry, _, hname, _⟩ := exists_of_forall₂ hc.labels (List.mem_of_getElem? hplace)
    exact exists_entryAt (hnames.imp_right fun h => by rwa [h]) (htypes.imp_right fun h => by rwa [h]) ⟨_, hname⟩
  obtain ⟨entries, hentries⟩ := exists_forall₂_iff.mpr hentry
  refine ⟨entries, hentries, mappedSchema_eq hentries, ?_⟩
  rw [names_of_entryAt hc hnames hentries]
  by_cases hnone : o.names = []
  · rw [if_pos hnone, hnone]
    exact ⟨fun _ => c.schema.names_nodup, fun _ hrepeat => absurd rfl hrepeat.ne_nil⟩
  · rw [if_neg hnone]
    exact ⟨id, fun _ => id⟩

/-! ## What comes of an application -/

/-- A field for each declared name and type, each over all fields. -/
structure Expands (c : Collection) (f : MapFunction) (o : ApplyOptions) (d : Collection) : Prop where
  name_eq : d.name = c.name
  source_eq : d.source = c.source
  schema_eq : d.schema.fields = o.names.zip o.types
  length_eq : d.fields.length = o.names.length
  field : ∀ i n t, o.names[i]? = some n → o.types[i]? = some t → ∃ e : Expr, d.fields[i]? = some e
    ∧ e.IsMapping ⟨f, .row, some i⟩ (some n) t (.combine (c.fields.map Expr.shape)) c.fields

/-- A field for each field, over that one alone. -/
structure MapsEach (c : Collection) (f : MapFunction) (o : ApplyOptions) (d : Collection) : Prop where
  name_eq : d.name = c.name
  source_eq : d.source = c.source
  size_eq : d.schema.size = c.fields.length
  length_eq : d.fields.length = c.fields.length
  field : ∀ i field, c.fields[i]? = some field → ∃ (n : String) (t : ElementType) (e : Expr),
    d.schema.fields[i]? = some (n, t) ∧ d.fields[i]? = some e ∧ o.EntryAt i field (n, t)
      ∧ e.IsMapping ⟨f, .column, none⟩ (some n) t field.shape [field]

/-- What an application comes to: along rows one mapping of all fields, or a field for each declared entry; along
columns a field for each field. -/
inductive Yields (c : Collection) (f : MapFunction) (o : ApplyOptions) : Applied → Prop
  | reduced {e : Expr} : o.axis = .row → o.reduce = true →
      e.IsMapping ⟨f, .row, none⟩ o.names.head? (o.types.head?.getD .string) (.combine (c.fields.map Expr.shape))
        c.fields →
      Yields c f o (.sequence e)
  | expanded {d : Collection} : o.axis = .row → o.reduce = false → c.Expands f o d → Yields c f o (.collection d)
  | each {d : Collection} : o.axis = .column → o.reduce = false → c.MapsEach f o d → Yields c f o (.collection d)

/-! ## What is asked of an application -/

/-- What the names and types of an application have to be like, in the three ways there are. -/
inductive AcceptsFunction (c : Collection) (o : ApplyOptions) : Prop
  | reduced : o.axis = .row → o.reduce = true → o.types.length ≤ 1 → o.names.length ≤ 1 → AcceptsFunction c o
  | expanded : o.axis = .row → o.reduce = false → o.names ≠ [] → o.names.length = o.types.length → o.names.Nodup →
      AcceptsFunction c o
  | each : o.axis = .column → o.reduce = false → c.TypesFit o → c.NamesFit o → o.names.Nodup → AcceptsFunction c o

/-- Why an application is refused: there is no field; there are too many types or names for one value; names and types
do not go together; columns are to be reduced; there are not as many types or names as fields; or a declared name comes
twice. Types count before names, and both before what the names are. -/
inductive RefusesFunction (c : Collection) (o : ApplyOptions) : BuildError → Prop
  | noField : c.fields = [] → RefusesFunction c o (.argumentCount "apply" "at least one field" 0)
  | types : c.fields ≠ [] → o.axis = .row → o.reduce = true → 1 < o.types.length →
      RefusesFunction c o (.argumentCount "apply" "at most one output type" o.types.length)
  | names : c.fields ≠ [] → o.axis = .row → o.reduce = true → o.types.length ≤ 1 → 1 < o.names.length →
      RefusesFunction c o (.argumentCount "apply" "at most one output name" o.names.length)
  | unpaired : c.fields ≠ [] → o.axis = .row → o.reduce = false →
      ¬ (o.names ≠ [] ∧ o.names.length = o.types.length) →
      RefusesFunction c o (.argumentCount "apply"
        ("one output type per output name (" ++ countText o.names.length ++ ")") o.types.length)
  | repeatedOutput {n : String} : c.fields ≠ [] → o.axis = .row → o.reduce = false → o.names.length = o.types.length →
      Schema.FirstRepeat o.names n → RefusesFunction c o (.duplicateField n)
  | reducedColumn : c.fields ≠ [] → o.axis = .column → o.reduce = true →
      RefusesFunction c o (.invalidArgument "apply"
        "reducing along the column axis aggregates a whole field, not a row")
  | typeCount : c.fields ≠ [] → o.axis = .column → o.reduce = false → ¬ c.TypesFit o →
      RefusesFunction c o (.argumentCount "apply" ("0, 1 or " ++ countText c.fields.length ++ " output types")
        o.types.length)
  | nameCount : c.fields ≠ [] → o.axis = .column → o.reduce = false → c.TypesFit o → ¬ c.NamesFit o →
      RefusesFunction c o (.argumentCount "apply" ("0 or " ++ countText c.fields.length ++ " output names")
        o.names.length)
  | repeatedName {n : String} : c.fields ≠ [] → o.axis = .column → o.reduce = false → c.TypesFit o → c.NamesFit o →
      Schema.FirstRepeat o.names n → RefusesFunction c o (.duplicateField n)

/-- An application that is not accepted is refused. -/
theorem accepts_or_refuses (c : Collection) (o : ApplyOptions) :
    (c.fields ≠ [] ∧ c.AcceptsFunction o) ∨ ∃ err, c.RefusesFunction o err := by
  by_cases hne : c.fields = []
  · exact .inr ⟨_, .noField hne⟩
  cases haxis : o.axis with
  | row =>
    cases hreduce : o.reduce with
    | true =>
      by_cases htypes : o.types.length ≤ 1
      · by_cases hnames : o.names.length ≤ 1
        · exact .inl ⟨hne, .reduced haxis hreduce htypes hnames⟩
        · exact .inr ⟨_, .names hne haxis hreduce htypes (Nat.lt_of_not_le hnames)⟩
      · exact .inr ⟨_, .types hne haxis hreduce (Nat.lt_of_not_le htypes)⟩
    | false =>
      by_cases hpaired : o.names ≠ [] ∧ o.names.length = o.types.length
      · rcases Schema.nodup_or_firstRepeat o.names with hnodup | ⟨n, hn⟩
        · exact .inl ⟨hne, .expanded haxis hreduce hpaired.1 hpaired.2 hnodup⟩
        · exact .inr ⟨_, .repeatedOutput hne haxis hreduce hpaired.2 hn⟩
      · exact .inr ⟨_, .unpaired hne haxis hreduce hpaired⟩
  | column =>
    cases hreduce : o.reduce with
    | true => exact .inr ⟨_, .reducedColumn hne haxis hreduce⟩
    | false =>
      by_cases htypes : c.TypesFit o
      · by_cases hnames : c.NamesFit o
        · rcases Schema.nodup_or_firstRepeat o.names with hnodup | ⟨n, hn⟩
          · exact .inl ⟨hne, .each haxis hreduce htypes hnames hnodup⟩
          · exact .inr ⟨_, .repeatedName hne haxis hreduce htypes hnames hn⟩
        · exact .inr ⟨_, .nameCount hne haxis hreduce htypes hnames⟩
      · exact .inr ⟨_, .typeCount hne haxis hreduce htypes⟩

/-! ## An application that is accepted -/

section

variable [Hasher]

theorem applyReduced_makes (htypes : o.types.length ≤ 1) (hnames : o.names.length ≤ 1) :
    (c.applyReduced f o).Makes (Expr.IsMapping ⟨f, .row, none⟩ o.names.head? (o.types.head?.getD .string)
      (.combine (c.fields.map Expr.shape)) c.fields) := by
  unfold applyReduced
  refine .expectCount (decide_eq_true htypes) (.expectCount (decide_eq_true hnames) ?_)
  refine mapping_makes.bind fun e he => ?_
  cases o.names.head? with
  | none => exact .pure he
  | some n => exact he.rename_makes n

theorem applyExpanded_makes (hnames : o.names ≠ []) (hpaired : o.names.length = o.types.length)
    (hnodup : o.names.Nodup) : (c.applyExpanded f o).Makes (c.Expands f o) := by
  have hentries : ((o.names.zip o.types).map Prod.fst).Nodup := by
    rwa [List.map_fst_zip (Nat.le_of_eq hpaired)]
  have hschema : Schema.ofLists o.names o.types = .ok ⟨o.names.zip o.types, hentries⟩ := by
    unfold Schema.ofLists
    rw [if_pos hpaired]
    exact Schema.ofFields_eq_ok.mpr rfl
  unfold applyExpanded
  refine .expectCount (paired_iff.mpr ⟨hnames, hpaired⟩) (.check hschema ?_)
  refine (Build.Makes.mapM fun _ => mapNode_makes _).bind fun fields hfields => .pure ?_
  refine ⟨rfl, rfl, rfl, ?_, fun i n t hn ht => ?_⟩
  · show fields.length = o.names.length
    rw [← hfields.length_eq, List.length_zipIdx, List.length_zip, ← hpaired, Nat.min_self]
  · have hentry : (o.names.zip o.types)[i]? = some (n, t) := List.getElem?_zip_eq_some.mpr ⟨hn, ht⟩
    have hplace : (o.names.zip o.types).zipIdx[i]? = some ((n, t), i) := by
      simp [List.getElem?_zipIdx, hentry]
    exact getElem?_of_forall₂ hfields hplace

theorem applyEach_makes (hc : c.Sound catalog heap) (htypes : c.TypesFit o) (hnames : c.NamesFit o)
    (hnodup : o.names.Nodup) : (c.applyEach f o).Makes (c.MapsEach f o) := by
  obtain ⟨entries, hentries, hschema, hdistinct, _⟩ := exists_entries ⟨"apply"⟩ hc hnames htypes
  have hlength : entries.length = c.fields.length := by
    rw [← hentries.length_eq, List.length_zipIdx]
  have hmade : mappedSchema ⟨"apply"⟩ o 0 .empty c.fields = .ok ⟨entries, hdistinct hnodup⟩ := by
    rw [hschema]
    exact Schema.ofFields_eq_ok.mpr rfl
  unfold applyEach
  refine .expectCount (typesFit_iff.mpr htypes) (.expectCount (namesFit_iff.mpr hnames) (.check hmade ?_))
  refine (Build.Makes.mapM fun _ => mapNode_makes _).bind fun fields hfields => .pure ?_
  refine ⟨rfl, rfl, hlength, ?_, fun i field hfield => ?_⟩
  · show fields.length = c.fields.length
    rw [← hfields.length_eq, List.length_zip, hlength, Nat.min_self]
  · have hplace : c.fields.zipIdx[i]? = some (field, i) := by
      simp [List.getElem?_zipIdx, hfield]
    obtain ⟨⟨n, t⟩, hentry, hat⟩ := getElem?_of_forall₂ hentries hplace
    have hpair : (entries.zip c.fields)[i]? = some ((n, t), field) := List.getElem?_zip_eq_some.mpr ⟨hentry, hfield⟩
    obtain ⟨e, he, hmapping⟩ := getElem?_of_forall₂ hfields hpair
    exact ⟨n, t, e, hentry, he, hat, hmapping⟩

/-- A sound collection that has fields passes the checks in front, whatever is to be applied. -/
theorem apply_eq (hc : c.Sound catalog heap) (hne : c.fields ≠ []) : c.apply f o = match o.axis, o.reduce with
    | .row, true => .sequence <$> c.applyReduced f o
    | .row, false => .collection <$> c.applyExpanded f o
    | .column, true => liftM (Checker.invalidArgument (α := Applied) ⟨"apply"⟩
      "reducing along the column axis aggregates a whole field, not a row")
    | .column, false => .collection <$> c.applyEach f o := by
  have hcount : Checker.expectCount ⟨"apply"⟩ (!c.fields.isEmpty) "at least one field" 0 = .ok () :=
    Checker.expectCount_isEmpty_eq_ok.mpr hne
  have howned : c.checkAllOwned c.fields = .ok () :=
    forM_eq_ok.mpr fun e he => checkOwned_eq_ok.mpr (hc.fields_over e he)
  funext s
  unfold apply
  simp only [Build.check_eq, hcount, howned]
  rfl

/-- An application that is accepted succeeds. -/
theorem apply_makes (hc : c.Sound catalog heap) (hne : c.fields ≠ []) (h : c.AcceptsFunction o) :
    (c.apply f o).Makes (c.Yields f o) := by
  rw [apply_eq hc hne]
  cases h with
  | reduced haxis hreduce htypes hnames =>
    rw [haxis, hreduce]
    exact .map ((applyReduced_makes htypes hnames).imp fun _ he => .reduced haxis hreduce he)
  | expanded haxis hreduce hnames hpaired hnodup =>
    rw [haxis, hreduce]
    exact .map ((applyExpanded_makes hnames hpaired hnodup).imp fun _ hd => .expanded haxis hreduce hd)
  | each haxis hreduce htypes hnames hnodup =>
    rw [haxis, hreduce]
    exact .map ((applyEach_makes hc htypes hnames hnodup).imp fun _ hd => .each haxis hreduce hd)

/-! ## An application that is refused -/

variable {s : Supply} {err : BuildError}

theorem applyExpanded_of_firstRepeat {n : String} (hpaired : o.names.length = o.types.length)
    (h : Schema.FirstRepeat o.names n) : c.applyExpanded f o s = .error (.duplicateField n) := by
  have hschema : Schema.ofLists o.names o.types = .error (.duplicateField n) := by
    unfold Schema.ofLists
    rw [if_pos hpaired]
    refine Schema.ofFields_of_firstRepeat ?_
    rwa [List.map_fst_zip (Nat.le_of_eq hpaired)]
  unfold applyExpanded
  refine Build.check_eq_error.mpr (.inr ⟨(), Checker.expectCount_eq_ok.mpr (paired_iff.mpr ⟨h.ne_nil, hpaired⟩), ?_⟩)
  exact Build.check_eq_error.mpr (.inl hschema)

theorem applyEach_of_firstRepeat (hc : c.Sound catalog heap) {n : String} (htypes : c.TypesFit o)
    (hnames : c.NamesFit o) (h : Schema.FirstRepeat o.names n) :
    c.applyEach f o s = .error (.duplicateField n) := by
  obtain ⟨entries, _, hschema, _, hrepeat⟩ := exists_entries ⟨"apply"⟩ hc hnames htypes
  unfold applyEach
  refine Build.check_eq_error.mpr (.inr ⟨(), Checker.expectCount_eq_ok.mpr (typesFit_iff.mpr htypes), ?_⟩)
  refine Build.check_eq_error.mpr (.inr ⟨(), Checker.expectCount_eq_ok.mpr (namesFit_iff.mpr hnames), ?_⟩)
  refine Build.check_eq_error.mpr (.inl ?_)
  rw [hschema]
  exact Schema.ofFields_of_firstRepeat (hrepeat n h)

theorem apply_of_refuses (hc : c.Sound catalog heap) (h : c.RefusesFunction o err) :
    c.apply f o s = .error err := by
  have hcount : ∀ {checker : Checker} {ok : Bool} {expected : String} {actual : Nat}, ¬ ok = true →
      checker.expectCount ok expected actual = .error (.argumentCount checker.operator expected actual) :=
    fun hok => Checker.expectCount_eq_error.mpr ⟨hok, rfl⟩
  have hmany : ∀ {n : Nat}, 1 < n → ¬ decide (n ≤ 1) = true := fun hn h => Nat.not_le_of_lt hn (of_decide_eq_true h)
  cases h with
  | noField hnone =>
    unfold apply
    exact Build.check_eq_error.mpr (.inl (Checker.expectCount_isEmpty_eq_error.mpr ⟨hnone, rfl⟩))
  | types hne haxis hreduce htypes =>
    rw [apply_eq hc hne, haxis, hreduce]
    exact Build.map_eq_error.mpr (Build.check_eq_error.mpr (.inl (hcount (hmany htypes))))
  | names hne haxis hreduce htypes hnames =>
    rw [apply_eq hc hne, haxis, hreduce]
    refine Build.map_eq_error.mpr (Build.check_eq_error.mpr (.inr ⟨(), Checker.expectCount_eq_ok.mpr ?_, ?_⟩))
    · exact decide_eq_true htypes
    · exact Build.check_eq_error.mpr (.inl (hcount (hmany hnames)))
  | unpaired hne haxis hreduce hpaired =>
    rw [apply_eq hc hne, haxis, hreduce]
    exact Build.map_eq_error.mpr (Build.check_eq_error.mpr (.inl (hcount (mt paired_iff.mp hpaired))))
  | repeatedOutput hne haxis hreduce hpaired hrepeat =>
    rw [apply_eq hc hne, haxis, hreduce]
    exact Build.map_eq_error.mpr (applyExpanded_of_firstRepeat hpaired hrepeat)
  | reducedColumn hne haxis hreduce =>
    rw [apply_eq hc hne, haxis, hreduce]
    rfl
  | typeCount hne haxis hreduce htypes =>
    rw [apply_eq hc hne, haxis, hreduce]
    exact Build.map_eq_error.mpr (Build.check_eq_error.mpr (.inl (hcount (mt typesFit_iff.mp htypes))))
  | nameCount hne haxis hreduce htypes hnames =>
    rw [apply_eq hc hne, haxis, hreduce]
    refine Build.map_eq_error.mpr (Build.check_eq_error.mpr (.inr ⟨(), Checker.expectCount_eq_ok.mpr ?_, ?_⟩))
    · exact typesFit_iff.mpr htypes
    · exact Build.check_eq_error.mpr (.inl (hcount (mt namesFit_iff.mp hnames)))
  | repeatedName hne haxis hreduce htypes hnames hrepeat =>
    rw [apply_eq hc hne, haxis, hreduce]
    exact Build.map_eq_error.mpr (applyEach_of_firstRepeat hc htypes hnames hrepeat)

/-! ## The nodes of an application -/

/-- An application that succeeds was accepted, and comes to what such an application comes to. -/
theorem yields_of_apply_eq_ok (hc : c.Sound catalog heap) {r : Applied × Supply} (hr : c.apply f o s = .ok r) :
    c.AcceptsFunction o ∧ c.Yields f o r.1 := by
  rcases c.accepts_or_refuses o with ⟨hne, haccepts⟩ | ⟨err, hrefuses⟩
  · exact ⟨haccepts, (apply_makes hc hne haccepts).of_eq_ok hr⟩
  · rw [apply_of_refuses hc hrefuses] at hr
    cases hr

/-- Along rows, every node made maps all fields. -/
theorem operands_of_apply_rows (hc : c.Sound catalog heap) {r : Applied × Supply} (hr : c.apply f o s = .ok r)
    (haxis : o.axis = .row) {e : Expr} (he : e ∈ r.1.exprs) : (∃ m, e.kind = .map m) ∧ e.operands = c.fields := by
  obtain ⟨haccepts, hyields⟩ := yields_of_apply_eq_ok hc hr
  generalize r.1 = made at hyields he
  cases hyields with
  | reduced _ _ hmapping =>
    cases List.mem_singleton.mp he
    exact ⟨⟨_, hmapping.kind_eq⟩, hmapping.operands_eq⟩
  | @expanded d _ hreduce hexpands =>
    obtain ⟨i, hlt, rfl⟩ := List.getElem_of_mem (show e ∈ d.fields from he)
    have hnames : i < o.names.length := hexpands.length_eq ▸ hlt
    have htypes : o.names.length = o.types.length := by
      cases haccepts with
      | reduced _ hreduced => exact absurd (hreduced.symm.trans hreduce) (by decide)
      | expanded _ _ _ hpaired => exact hpaired
      | each hcolumn => exact absurd (hcolumn.symm.trans haxis) (by decide)
    obtain ⟨e, hplace, hmapping⟩ := hexpands.field i _ _ (List.getElem?_eq_getElem hnames)
      (List.getElem?_eq_getElem (htypes ▸ hnames))
    obtain ⟨_, rfl⟩ := List.getElem?_eq_some_iff.mp hplace
    exact ⟨⟨_, hmapping.kind_eq⟩, hmapping.operands_eq⟩
  | each hcolumn => exact absurd (hcolumn.symm.trans haxis) (by decide)

/-- Along columns, every node made maps the field at its place. -/
theorem operands_of_apply_columns (hc : c.Sound catalog heap) {r : Applied × Supply} (hr : c.apply f o s = .ok r)
    (haxis : o.axis = .column) {i : Nat} {field e : Expr} (hfield : c.fields[i]? = some field)
    (he : r.1.exprs[i]? = some e) : (∃ m, e.kind = .map m) ∧ e.operands = [field] := by
  obtain ⟨_, hyields⟩ := yields_of_apply_eq_ok hc hr
  generalize r.1 = made at hyields he
  cases hyields with
  | reduced hrow | expanded hrow => exact absurd (hrow.symm.trans haxis) (by decide)
  | each _ _ heach =>
    obtain ⟨_, _, mapped, _, hplace, _, hmapping⟩ := heach.field i field hfield
    cases hplace.symm.trans he
    exact ⟨⟨_, hmapping.kind_eq⟩, hmapping.operands_eq⟩

end

end Collection

end Columnar
