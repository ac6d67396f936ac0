import PluginChain.ConfigFile
import PluginChain.Proofs.OrderedKeys
set_option autoImplicit false

/-!
# Keys of files that are read

The keys of every table of a configuration's file increase, at every depth and in either
format, so that each occurs once (`ConfigFile.ordered_of_read`).  While a TOML document is
built, every statement keeps this of the drafts (`Draft.keeps_inTable`), and then a draft
becomes a value of the same tables.
-/

namespace PluginChain

/-! ## Values and drafts -/

namespace Toml

/-- A value in which the keys of every table increase. -/
inductive Ordered : Toml → Prop
  | scalar (v : Scalar) : Ordered (.scalar v)
  | array {items : List Toml} (h : ∀ v ∈ items, Ordered v) : Ordered (.array items)
  | table {fields : List (String × Toml)} (hkeys : (Keyed.keys fields).Pairwise (· < ·))
      (h : ∀ p ∈ fields, Ordered p.2) : Ordered (.table fields)

end Toml

namespace Draft

/-- A draft in which the keys of every table increase. -/
inductive Ordered : Draft → Prop
  | value {v : Toml} (h : v.Ordered) : Ordered (.value v)
  | table (origin : TableOrigin) {fields : List (String × Draft)}
      (hkeys : (Keyed.keys fields).Pairwise (· < ·)) (h : ∀ p ∈ fields, Ordered p.2) :
      Ordered (.table origin fields)
  | tables {latestFirst : List (List (String × Draft))}
      (hkeys : ∀ fields ∈ latestFirst, (Keyed.keys fields).Pairwise (· < ·))
      (h : ∀ fields ∈ latestFirst, ∀ p ∈ fields, Ordered p.2) : Ordered (.tables latestFirst)

variable {fields fields' : Fields} {key : String}

theorem Ordered.of_table {origin : TableOrigin} (h : Ordered (.table origin fields)) :
    Keyed.Ordered Ordered fields := by
  cases h with
  | table _ hkeys h => exact ⟨hkeys, h⟩

/-- The latest table of an array may be changed. -/
theorem Ordered.of_tables {latest : Fields} {others : List (List (String × Draft))}
    (h : Ordered (.tables (latest :: others))) :
    Keyed.Ordered Ordered latest ∧
      ∀ changed, Keyed.Ordered Ordered changed → Ordered (.tables (changed :: others)) := by
  cases h with
  | tables hkeys h =>
    refine ⟨⟨hkeys _ List.mem_cons_self, h _ List.mem_cons_self⟩, ?_⟩
    intro changed hchanged
    refine .tables ?_ ?_
    · intro fields hfields
      rcases List.mem_cons.mp hfields with rfl | hfields
      · exact hchanged.1
      · exact hkeys _ (List.mem_cons_of_mem _ hfields)
    · intro fields hfields
      rcases List.mem_cons.mp hfields with rfl | hfields
      · exact hchanged.2
      · exact h _ (List.mem_cons_of_mem _ hfields)

/-- The keys of all tables still increase after a change. -/
def Keeps (change : Fields → Except TomlProblem Fields) : Prop :=
  ∀ fields fields', change fields = .ok fields' →
    Keyed.Ordered Ordered fields → Keyed.Ordered Ordered fields'

theorem keeps_openTable (key : String) : Keeps (openTable key) := by
  intro fields fields' h hfields
  unfold openTable at h
  split at h
  · cases h
    exact hfields.insert (.table _ List.Pairwise.nil nofun)
  · next inner hinner =>
    cases h
    have hordered := (hfields.of_get? hinner).of_table
    exact hfields.insert (.table _ hordered.1 hordered.2)
  · cases h

theorem keeps_openInArray (key : String) : Keeps (openInArray key) := by
  intro fields fields' h hfields
  unfold openInArray at h
  split at h
  · cases h
    refine hfields.insert (.tables ?_ ?_)
    · intro inner hinner
      rw [List.mem_singleton.mp hinner]
      exact List.Pairwise.nil
    · intro inner hinner
      rw [List.mem_singleton.mp hinner]
      exact nofun
  · next latestFirst htables =>
    cases h
    cases hfields.of_get? htables with
    | tables hkeys h =>
      refine hfields.insert (.tables ?_ ?_)
      · intro inner hinner
        rcases List.mem_cons.mp hinner with rfl | hinner
        · exact List.Pairwise.nil
        · exact hkeys _ hinner
      · intro inner hinner
        rcases List.mem_cons.mp hinner with rfl | hinner
        · exact nofun
        · exact h _ hinner
  · cases h

/-- What is changed inside one field is put back under its key. -/
theorem ordered_of_put {change : Fields → Except TomlProblem Fields} {make : Fields → Draft}
    {inner : Fields} (hchange : Keeps change) (hinner : Keyed.Ordered Ordered inner)
    (hmake : ∀ changed, Keyed.Ordered Ordered changed → (make changed).Ordered)
    (hfields : Keyed.Ordered Ordered fields)
    (h : (match change inner with
      | .ok inner => Except.ok (Keyed.insert key (make inner) fields)
      | .error p => .error p) = .ok fields') : Keyed.Ordered Ordered fields' := by
  split at h
  · next changed hchanged =>
    cases h
    exact hfields.insert (hmake _ (hchange _ _ hchanged hinner))
  · cases h

theorem ordered_table (origin : TableOrigin) (h : Keyed.Ordered Ordered fields) :
    Ordered (.table origin fields) := .table origin h.1 h.2

theorem keeps_inTable {change : Fields → Except TomlProblem Fields} (hchange : Keeps change)
    (path : List String) : Keeps (inTable change path) := by
  induction path with
  | nil => exact hchange
  | cons key rest ih =>
    intro fields fields' h hfields
    unfold inTable at h
    dsimp only at h
    split at h
    · exact ordered_of_put ih Keyed.ordered_nil (fun _ => ordered_table _) hfields h
    · next origin inner hinner =>
      have hordered := (hfields.of_get? hinner).of_table
      exact ordered_of_put ih hordered (fun _ => ordered_table _) hfields h
    · next latest others htables =>
      obtain ⟨hlatest, hothers⟩ := (hfields.of_get? htables).of_tables
      exact ordered_of_put ih hlatest hothers hfields h
    · cases h

theorem keeps_assign (key : String) {v : Toml} (hv : v.Ordered) (before : List String) :
    Keeps (assign key v before) := by
  induction before with
  | nil =>
    intro fields fields' h hfields
    unfold assign assignKey at h
    split at h
    · cases h
    · cases h
      exact hfields.insert (.value hv)
  | cons first rest ih =>
    intro fields fields' h hfields
    unfold assign at h
    dsimp only at h
    split at h
    · exact ordered_of_put ih Keyed.ordered_nil (fun _ => ordered_table _) hfields h
    · next inner hinner =>
      have hordered := (hfields.of_get? hinner).of_table
      exact ordered_of_put ih hordered (fun _ => ordered_table _) hfields h
    · next inner hinner =>
      have hordered := (hfields.of_get? hinner).of_table
      exact ordered_of_put ih hordered (fun _ => ordered_table _) hfields h
    · next latest others htables =>
      split at h
      · cases h
      · obtain ⟨hlatest, hothers⟩ := (hfields.of_get? htables).of_tables
        exact ordered_of_put ih hlatest hothers hfields h
    · cases h

end Draft

/-- A statement whose value, if it has one, holds tables with increasing keys only. -/
def TomlStatement.Ordered : TomlStatement → Prop
  | .assign _ _ v => v.Ordered
  | .header _ _ | .arrayHeader _ _ => True

namespace Draft

theorem ordered_of_follow {statements : List TomlStatement} {current : List String}
    {root root' : Fields} (h : follow statements current root = .ok root')
    (hstatements : ∀ s ∈ statements, s.Ordered) (hroot : Keyed.Ordered Ordered root) :
    Keyed.Ordered Ordered root' := by
  induction statements generalizing current root with
  | nil =>
    cases h
    exact hroot
  | cons s rest ih =>
    have hrest : ∀ s ∈ rest, s.Ordered := by
      intro s hs
      exact hstatements s (List.mem_cons_of_mem _ hs)
    have hstep {change : Fields → Except TomlProblem Fields} {path current : List String}
        (hchange : Keeps change)
        (h : (match inTable change path root with
          | .ok root => follow rest current root
          | .error p => .error p) = .ok root') : Keyed.Ordered Ordered root' := by
      split at h
      · next changed hchanged =>
        exact ih h hrest (keeps_inTable hchange path _ _ hchanged hroot)
      · cases h
    cases s with
    | header before key => exact hstep (keeps_openTable key) h
    | arrayHeader before key => exact hstep (keeps_openInArray key) h
    | assign before key v =>
      exact hstep (keeps_assign key (hstatements _ List.mem_cons_self) before) h

theorem toFields_eq_map (fields : List (String × Draft)) :
    toFields fields = fields.map fun p => (p.1, toToml p.2) := by
  induction fields with
  | nil => rw [toFields, List.map_nil]
  | cons p rest ih =>
    obtain ⟨key, d⟩ := p
    rw [toFields, ih, List.map_cons]

theorem mem_toTables {latestFirst : List (List (String × Draft))} {later : List Toml} {v : Toml}
    (h : v ∈ toTables latestFirst later) :
    v ∈ later ∨ ∃ fields ∈ latestFirst, v = .table (toFields fields) := by
  induction latestFirst generalizing later with
  | nil =>
    rw [toTables] at h
    exact .inl h
  | cons fields earlier ih =>
    rw [toTables] at h
    rcases ih h with hv | ⟨inner, hinner, rfl⟩
    · rcases List.mem_cons.mp hv with rfl | hv
      · exact .inr ⟨fields, List.mem_cons_self, rfl⟩
      · exact .inl hv
    · exact .inr ⟨inner, List.mem_cons_of_mem _ hinner, rfl⟩

/-- A draft becomes a value of the same tables. -/
theorem Ordered.toToml {d : Draft} (h : d.Ordered) : d.toToml.Ordered := by
  induction h with
  | value h =>
    rw [Draft.toToml]
    exact h
  | @table origin fields hkeys _ ih =>
    rw [Draft.toToml, toFields_eq_map]
    have hordered : Keyed.Ordered (fun d => d.toToml.Ordered) fields := ⟨hkeys, ih⟩
    have hmapped := hordered.map (f := Draft.toToml) fun _ => id
    exact .table hmapped.1 hmapped.2
  | @tables latestFirst hkeys _ ih =>
    rw [Draft.toToml]
    apply Toml.Ordered.array
    intro v hv
    rcases mem_toTables hv with hv | ⟨fields, hfields, rfl⟩
    · cases hv
    · rw [toFields_eq_map]
      have hordered : Keyed.Ordered (fun d => d.toToml.Ordered) fields :=
        ⟨hkeys fields hfields, ih fields hfields⟩
      have hmapped := hordered.map (f := Draft.toToml) fun _ => id
      exact .table hmapped.1 hmapped.2

end Draft

namespace Toml

/-- The keys of all tables that statements describe increase. -/
theorem ordered_of_ofStatements {statements : List TomlStatement} {fields : List (String × Toml)}
    (h : ofStatements statements = .ok fields) (hstatements : ∀ s ∈ statements, s.Ordered) :
    Keyed.Ordered Ordered fields := by
  unfold ofStatements at h
  split at h
  · next root hroot =>
    cases h
    rw [Draft.toFields_eq_map]
    exact (Draft.ordered_of_follow hroot hstatements Keyed.ordered_nil).map fun _ => Draft.Ordered.toToml
  · cases h

/-- A reader that gives values of one kind. -/
def Reader.Yields {α : Type} (reader : Reader α) (kind : α → Prop) : Prop :=
  ∀ s a rest, reader s = .ok (a, rest) → kind a

section

variable {item : Reader Toml} {s rest : List Char}

/-- The elements that are read are what each is read as. -/
theorem ordered_of_takeItems {fuel : Nat} {taken items : List Toml} (hitem : Reader.Yields item Ordered)
    (h : takeItems item fuel taken s = .ok (items, rest)) (htaken : ∀ v ∈ taken, v.Ordered) :
    ∀ v ∈ items, v.Ordered := by
  induction fuel generalizing taken s with
  | zero => cases h
  | succ fuel ih =>
    unfold takeItems at h
    split at h
    · cases h
      intro v hv
      exact htaken v (List.mem_reverse.mp hv)
    · split at h
      · cases h
      · next v behind hv =>
        have hmore : ∀ w ∈ v :: taken, w.Ordered := by
          intro w hw
          rcases List.mem_cons.mp hw with rfl | hw
          · exact hitem _ _ _ hv
          · exact htaken w hw
        split at h
        · exact ih h hmore
        · cases h
          intro w hw
          exact hmore w (List.mem_reverse.mp hw)
        · cases h

theorem ordered_of_takeAssignment {skip : List Char → List Char} {a : List String × String × Toml}
    (hitem : Reader.Yields item Ordered) (h : takeAssignment skip item s = .ok (a, rest)) :
    a.2.2.Ordered := by
  unfold takeAssignment at h
  split at h
  · cases h
  · split at h
    · split at h
      · cases h
      · next hv =>
        cases h
        exact hitem _ _ _ hv
    · cases h

theorem ordered_of_takeAssignments {fuel : Nat} {taken as : List (List String × String × Toml)}
    (hitem : Reader.Yields item Ordered) (h : takeAssignments item fuel taken s = .ok (as, rest))
    (htaken : ∀ a ∈ taken, a.2.2.Ordered) : ∀ a ∈ as, a.2.2.Ordered := by
  induction fuel generalizing taken s with
  | zero => cases h
  | succ fuel ih =>
    unfold takeAssignments at h
    split at h
    · cases h
      intro a ha
      exact htaken a (List.mem_reverse.mp ha)
    · split at h
      · cases h
      · next a behind ha =>
        have hmore : ∀ b ∈ a :: taken, b.2.2.Ordered := by
          intro b hb
          rcases List.mem_cons.mp hb with rfl | hb
          · exact ordered_of_takeAssignment hitem ha
          · exact htaken b hb
        split at h
        · exact ih h hmore
        · cases h
          intro b hb
          exact hmore b (List.mem_reverse.mp hb)
        · cases h

end

/-- The keys of every table between braces increase. -/
theorem ordered_of_ofAssignments {as : List (List String × String × Toml)} {v : Toml}
    (h : ofAssignments as = .ok v) (has : ∀ a ∈ as, a.2.2.Ordered) : v.Ordered := by
  unfold ofAssignments at h
  split at h
  · next fields hfields =>
    cases h
    have hordered := ordered_of_ofStatements hfields (by
      intro s hs
      obtain ⟨a, ha, rfl⟩ := List.mem_map.mp hs
      exact has a ha)
    exact .table hordered.1 hordered.2
  · cases h

/-- The keys of every table that is read increase. -/
theorem yields_takeValue (depth : Nat) : Reader.Yields (takeValue depth) Ordered := by
  induction depth using Nat.strongRecOn with
  | ind depth ih =>
    intro s v rest h
    unfold takeValue at h
    split at h
    · cases h
    · split at h
      · split at h
        · cases h
          exact .scalar _
        · cases h
      · split at h
        · split at h
          · cases h
          · split at h
            · next hitems =>
              cases h
              apply Ordered.array
              exact ordered_of_takeItems (ih _ (Nat.lt_succ_self _)) hitems nofun
            · cases h
        · split at h
          · split at h
            · cases h
            · split at h
              · cases h
              · next has =>
                split at h
                · next hbuilt =>
                  cases h
                  apply ordered_of_ofAssignments hbuilt
                  exact ordered_of_takeAssignments (ih _ (Nat.lt_succ_self _)) has nofun
                · cases h
          · split at h
            · cases h
              exact .scalar _
            · cases h

theorem ordered_of_takeStatement {s rest : List Char} {statement : TomlStatement}
    (h : takeStatement s = .ok (statement, rest)) : statement.Ordered := by
  unfold takeStatement at h
  split at h
  · split at h
    · cases h
    · split at h
      · cases h
        trivial
      · cases h
  · split at h
    · cases h
    · split at h
      · cases h
        trivial
      · cases h
  · split at h
    · next hassign =>
      cases h
      exact ordered_of_takeAssignment (yields_takeValue depthLimit) hassign
    · cases h

theorem ordered_of_takeStatements {fuel : Nat} {taken statements : List TomlStatement}
    {s : List Char} (h : takeStatements fuel taken s = .ok statements)
    (htaken : ∀ s ∈ taken, s.Ordered) : ∀ s ∈ statements, s.Ordered := by
  induction fuel generalizing taken s with
  | zero => cases h
  | succ fuel ih =>
    unfold takeStatements at h
    split at h
    · cases h
      intro s hs
      exact htaken s (List.mem_reverse.mp hs)
    · split at h
      · cases h
      · next statement _ hstatement =>
        split at h
        · cases h
        · apply ih h
          intro s hs
          rcases List.mem_cons.mp hs with rfl | hs
          · exact ordered_of_takeStatement hstatement
          · exact htaken s hs

/-- The keys of every table of a document increase. -/
theorem ordered_of_parse {s : String} {fields : List (String × Toml)} (h : parse s = .ok fields) :
    Keyed.Ordered Ordered fields := by
  unfold parse at h
  dsimp only at h
  split at h
  · cases h
  · next hstatements =>
    exact ordered_of_ofStatements h (ordered_of_takeStatements hstatements nofun)

end Toml

/-! ## Settings -/

namespace Setting

/-- A setting in which the keys of every table increase. -/
inductive Ordered : Setting → Prop
  | scalar (origin? : Option String) (v : Scalar) : Ordered (.scalar origin? v)
  | list (origin? : Option String) {items : List Setting} (h : ∀ v ∈ items, Ordered v) :
      Ordered (.list origin? items)
  | table (origin? : Option String) {fields : List (String × Setting)}
      (hkeys : (Keyed.keys fields).Pairwise (· < ·)) (h : ∀ p ∈ fields, Ordered p.2) :
      Ordered (.table origin? fields)

variable {origin : String}

theorem ofTomlFields_eq_map (fields : List (String × Toml)) :
    ofTomlFields origin fields = fields.map fun p => (p.1, ofToml origin p.2) := by
  induction fields with
  | nil => rw [ofTomlFields, List.map_nil]
  | cons p rest ih =>
    obtain ⟨key, v⟩ := p
    rw [ofTomlFields, ih, List.map_cons]

theorem ofTomlItems_eq_map (items : List Toml) :
    ofTomlItems origin items = items.map (ofToml origin) := by
  induction items with
  | nil => rw [ofTomlItems, List.map_nil]
  | cons v rest ih => rw [ofTomlItems, ih, List.map_cons]

theorem ofJsonFields_eq_map (fields : List (String × Json)) :
    ofJsonFields origin fields = fields.map fun p => (p.1, ofJson origin p.2) := by
  induction fields with
  | nil => rw [ofJsonFields, List.map_nil]
  | cons p rest ih =>
    obtain ⟨key, v⟩ := p
    rw [ofJsonFields, ih, List.map_cons]

theorem ofJsonItems_eq_map (items : List Json) :
    ofJsonItems origin items = items.map (ofJson origin) := by
  induction items with
  | nil => rw [ofJsonItems, List.map_nil]
  | cons v rest ih => rw [ofJsonItems, ih, List.map_cons]

theorem ordered_ofToml {v : Toml} (h : v.Ordered) : (ofToml origin v).Ordered := by
  induction h with
  | scalar v =>
    rw [ofToml]
    exact .scalar _ _
  | array _ ih =>
    rw [ofToml, ofTomlItems_eq_map]
    apply Ordered.list
    intro s hs
    obtain ⟨v, hv, rfl⟩ := List.mem_map.mp hs
    exact ih v hv
  | @table fields hkeys _ ih =>
    rw [ofToml, ofTomlFields_eq_map]
    have hordered : Keyed.Ordered (fun v => (ofToml origin v).Ordered) fields := ⟨hkeys, ih⟩
    have hmapped := hordered.map (f := ofToml origin) fun _ => id
    exact .table _ hmapped.1 hmapped.2

theorem ordered_ofJson {v : Json} (h : v.Ordered) : (ofJson origin v).Ordered := by
  induction h with
  | null | bool _ | int _ | float _ | str _ =>
    rw [ofJson]
    exact .scalar _ _
  | arr _ ih =>
    rw [ofJson, ofJsonItems_eq_map]
    apply Ordered.list
    intro s hs
    obtain ⟨v, hv, rfl⟩ := List.mem_map.mp hs
    exact ih v hv
  | @obj fields hkeys _ ih =>
    rw [ofJson, ofJsonFields_eq_map]
    have hordered : Keyed.Ordered (fun v => (ofJson origin v).Ordered) fields := ⟨hkeys, ih⟩
    have hmapped := hordered.map (f := ofJson origin) fun _ => id
    exact .table _ hmapped.1 hmapped.2

end Setting

/-- The keys of every table of a file increase, in either format. -/
theorem ConfigFormat.ordered_of_read {origin text : String} {format : ConfigFormat}
    {fields : List (String × Setting)} (h : format.read origin text = .ok fields) :
    Keyed.Ordered Setting.Ordered fields := by
  cases format with
  | toml =>
    unfold ConfigFormat.read at h
    dsimp only at h
    split at h
    · next hparse =>
      cases h
      rw [Setting.ofTomlFields_eq_map]
      exact (Toml.ordered_of_parse hparse).map fun _ => Setting.ordered_ofToml
    · cases h
  | json =>
    unfold ConfigFormat.read at h
    dsimp only at h
    split at h
    · next hparse =>
      cases h
      rw [Setting.ofJsonFields_eq_map]
      cases Json.ordered_of_parse hparse with
      | obj hkeys hvalues =>
        have hordered : Keyed.Ordered Json.Ordered _ := ⟨hkeys, hvalues⟩
        exact hordered.map fun _ => Setting.ordered_ofJson
    · cases h
    · cases h

/-- The keys of every table of a configuration's file increase. -/
theorem ConfigFile.ordered_of_read {fs : FileSystem} {path : String}
    {fields : List (String × Setting)} (h : ConfigFile.read fs path = .ok fields) :
    Keyed.Ordered Setting.Ordered fields := by
  unfold ConfigFile.read at h
  split at h
  · cases h
    exact Keyed.ordered_nil
  · split at h
    · cases h
      exact Keyed.ordered_nil
    · exact ConfigFormat.ordered_of_read h

end PluginChain
