import CmInventory.Proofs.Inventory.Batches
import CmInventory.Proofs.Inventory.Creation

/-!
# Updates of properties

An update goes through the requested handles one after the other. Each of them is answered by itself, from what
the store held at the start (`UpdateAnswer`): an update neither stores a handle nor takes one away. What is
found under a name in the properties of a handle is what its updates leave there, in their order
(`valueAfter`): each of them sets the value, removes it or says nothing of it. Nothing else of a record changes,
and no other record (`Updated`).

An update writes to the row that has the id of the record that it found, so every record has to stand under its
own id (`Store.Filed`).
-/

namespace CmInventory

open Inventory

/-! ## Properties -/

/-- What is found under a name after changes, one after the other. Each sets the value, removes it, or does not
name it. -/
def valueAfter (name : String) (changes : List (Dictionary (Option String))) (found : Option String) :
    Option String :=
  changes.foldl (fun found change => (change.find? name).getD found) found

theorem valueAfter_append (name : String) (changes more : List (Dictionary (Option String)))
    (found : Option String) :
    valueAfter name (changes ++ more) found = valueAfter name more (valueAfter name changes found) :=
  List.foldl_append

theorem find?_mergeProperties (properties : Dictionary String) (changes : Dictionary (Option String))
    (name : String) :
    (mergeProperties properties changes).find? name =
      (changes.find? name).getD (properties.find? name) := by
  suffices hall : ∀ entries hascending found, (mergeProperties found ⟨entries, hascending⟩).find? name =
      (Dictionary.lookup name entries).getD (found.find? name) from
    hall changes.entries changes.ascending properties
  intro entries
  induction entries with
  | nil => exact fun _ _ => rfl
  | cons e rest ih =>
      rcases e with ⟨key, value⟩
      intro hascending found
      rcases List.pairwise_cons.1 hascending with ⟨hkey, hrest⟩
      have hsplit : mergeProperties found ⟨(key, value) :: rest, hascending⟩ =
          mergeProperties (value.elim (found.erase key) (found.insert key)) ⟨rest, hrest⟩ := by
        cases value <;> rfl
      have hfirst : (value.elim (found.erase key) (found.insert key)).find? name =
          if key = name then value else found.find? name := by
        cases value with
        | none => exact Dictionary.find?_erase _ _ _
        | some value => exact Dictionary.find?_insert _ _ _ _
      rw [hsplit, ih hrest, hfirst, Dictionary.lookup]
      by_cases hname : key = name
      · -- The keys ascend, so none of the later changes names it.
        subst hname
        rw [if_pos rfl, if_pos rfl, Dictionary.lookup_eq_none_of_lt hkey]
        rfl
      · rw [if_neg hname, if_neg hname]

/-- The record of a handle after an update. -/
def Handle.updated (h : Handle) (r : RequestedHandle) : Handle :=
  { h with
    dmiProperties := mergeProperties h.dmiProperties r.dmiProperties
    publicProperties := mergeProperties h.publicProperties r.publicProperties }

/-- A record after updates, one after the other. Only the properties differ. -/
structure UpdatedBy (updates : List RequestedHandle) (h h' : Handle) : Prop where
  dmiProperties : ∀ name, h'.dmiProperties.find? name =
    valueAfter name (updates.map (·.dmiProperties)) (h.dmiProperties.find? name)
  publicProperties : ∀ name, h'.publicProperties.find? name =
    valueAfter name (updates.map (·.publicProperties)) (h.publicProperties.find? name)
  rest : h' = { h with dmiProperties := h'.dmiProperties, publicProperties := h'.publicProperties }

namespace UpdatedBy

variable {updates : List RequestedHandle} {h h' h'' : Handle}

theorem refl (h : Handle) : UpdatedBy [] h h := ⟨fun _ => rfl, fun _ => rfl, rfl⟩

/-- The record after updates is determined by them. -/
theorem unique (h₁ : UpdatedBy updates h h') (h₂ : UpdatedBy updates h h'') : h' = h'' := by
  have hdmi : h'.dmiProperties = h''.dmiProperties :=
    Dictionary.ext_find? fun name => (h₁.dmiProperties name).trans (h₂.dmiProperties name).symm
  have hpublic : h'.publicProperties = h''.publicProperties :=
    Dictionary.ext_find? fun name => (h₁.publicProperties name).trans (h₂.publicProperties name).symm
  rw [h₁.rest, h₂.rest, hdmi, hpublic]

theorem trans {more : List RequestedHandle} (h₁ : UpdatedBy updates h h') (h₂ : UpdatedBy more h' h'') :
    UpdatedBy (updates ++ more) h h'' := by
  refine ⟨fun name => ?_, fun name => ?_, ?_⟩
  · rw [List.map_append, valueAfter_append, ← h₁.dmiProperties]
    exact h₂.dmiProperties name
  · rw [List.map_append, valueAfter_append, ← h₁.publicProperties]
    exact h₂.publicProperties name
  · rw [h₂.rest, h₁.rest]

theorem one (h : Handle) (r : RequestedHandle) : UpdatedBy [r] h (h.updated r) :=
  ⟨fun _ => find?_mergeProperties _ _ _, fun _ => find?_mergeProperties _ _ _, rfl⟩

/-- A single update that is made again changes nothing. -/
theorem again (hlength : updates.length ≤ 1) (hu : UpdatedBy updates h h') : UpdatedBy updates h' h' := by
  have hvalue : ∀ name (changes : List (Dictionary (Option String))) (found : Option String),
      changes.length ≤ 1 → valueAfter name changes (valueAfter name changes found) =
        valueAfter name changes found := by
    intro name changes found hchanges
    match changes, hchanges with
    | [], _ => rfl
    | [change], _ =>
        simp only [valueAfter, List.foldl_cons, List.foldl_nil]
        cases change.find? name <;> rfl
  refine ⟨fun name => ?_, fun name => ?_, rfl⟩
  · rw [hu.dmiProperties, hvalue]
    simpa using hlength
  · rw [hu.publicProperties, hvalue]
    simpa using hlength

end UpdatedBy

/-! ## One update -/

/-- The answer to a requested update. The store is the one from before the request. -/
inductive UpdateAnswer (s : Store) (r : RequestedHandle) : HandleResponse → Prop
  | invalid (name : ¬ HandleId.IsName r.id) : UpdateAnswer s r (.failure ⟨r.id⟩ .invalidId)
  | absent (name : HandleId.IsName r.id) (free : s.handles.contains r.id = false) :
      UpdateAnswer s r (.failure ⟨r.id⟩ .doesNotExist)
  | unreadable (name : HandleId.IsName r.id) {row : HandleRow} {e : StoreError}
      (stored : s.handles.find? r.id = some row) (unreadable : row.handle = .error e) :
      UpdateAnswer s r (.unknownFailure ⟨r.id⟩ e.message)
  | done (name : HandleId.IsName r.id) {h : Handle} (stored : s.get ⟨r.id⟩ = .ok h) :
      UpdateAnswer s r (.success ⟨r.id⟩)

/-- The updates of a handle among the requested ones. -/
def updatesOf (id : HandleId) (requested : List RequestedHandle) : List RequestedHandle :=
  requested.filter fun r => r.id = id.text ∧ HandleId.IsName r.id

/-- What becomes of the row under an id: it stays if the handle is not updated or has no record that can be
read, and otherwise it is that of the updated record. -/
inductive RowAfter (updates : List RequestedHandle) (id : HandleId) (s s' : Store) : Prop
  | kept (unread : updates = [] ∨ ∃ e, s.get id = .error e)
      (row : s'.handles.find? id.text = s.handles.find? id.text)
  | written {h h' : Handle} (named : updates ≠ []) (stored : s.get id = .ok h)
      (updated : UpdatedBy updates h h') (row : s'.handles.find? id.text = some (.ofHandle h'))

/-- What updates come to. There is an answer for each of them, at its position; the records are updated, and
nothing else changes. -/
structure UpdatesDone (requested : List RequestedHandle) (w : World) (responses : List HandleResponse)
    (w' : World) : Prop where
  answered : List.Forall₂ (UpdateAnswer w.store) requested responses
  rows : ∀ id, RowAfter (updatesOf id requested) id w.store w'.store
  tables : w'.store = { w.store with handles := w'.store.handles }
  rest : w.SameButStore w'

section

variable {c : Circumstances} {u v w w' : World} {requested more : List RequestedHandle}
  {updates : List RequestedHandle} {r : RequestedHandle} {responses : List HandleResponse}
  {response : HandleResponse} {s s' s'' : Store} {id : HandleId}

theorem Store.get_congr (hrow : s'.handles.find? id.text = s.handles.find? id.text) :
    s'.get id = s.get id := by
  rw [Store.get, Store.get, hrow]

theorem Store.get_of_find? {row : HandleRow} (hrow : s.handles.find? id.text = some row) :
    s.get id = row.handle := by
  rw [Store.get, hrow]

theorem Store.get_of_row {h : Handle} (hrow : s.handles.find? id.text = some (.ofHandle h)) :
    s.get id = .ok h :=
  (Store.get_of_find? hrow).trans (HandleRow.handle_ofHandle h)

/-- A handle is not stored, or its row cannot be read, or it has a record. -/
theorem Store.get_cases (s : Store) (id : HandleId) :
    (s.handles.contains id.text = false ∧ s.get id = .error (.notFound id.text)) ∨
      (∃ row fault, s.handles.find? id.text = some row ∧ row.handle = .error (.unreadable fault) ∧
        s.get id = .error (.unreadable fault)) ∨ ∃ h, s.get id = .ok h := by
  cases hrow : s.handles.find? id.text with
  | none => exact Or.inl ⟨by rw [Dictionary.contains, hrow]; rfl, by rw [Store.get, hrow]⟩
  | some row =>
      rw [Store.get_of_find? hrow]
      cases hdecode : Json.decode Handle.decoder row.record with
      | error fault =>
          have hrow' : row.handle = .error (.unreadable fault) := by rw [HandleRow.handle, hdecode]; rfl
          exact Or.inr (Or.inl ⟨row, fault, rfl, hrow', hrow'⟩)
      | ok h => exact Or.inr (Or.inr ⟨h, by rw [HandleRow.handle, hdecode]; rfl⟩)

namespace RowAfter

/-- A record that was there is there updated. -/
theorem get {h : Handle} (ha : RowAfter updates id s s') (hget : s.get id = .ok h) :
    ∃ h', s'.get id = .ok h' ∧ UpdatedBy updates h h' := by
  cases ha with
  | kept unread row =>
      rcases unread with rfl | ⟨e, he⟩
      · exact ⟨h, (Store.get_congr row).trans hget, .refl h⟩
      · rw [hget] at he
        cases he
  | @written g h' named stored updated row =>
      rw [hget] at stored
      cases stored
      exact ⟨h', Store.get_of_row row, updated⟩

/-- A row without a record is kept. -/
theorem row_of_error {e : StoreError} (ha : RowAfter updates id s s') (hget : s.get id = .error e) :
    s'.handles.find? id.text = s.handles.find? id.text := by
  cases ha with
  | kept unread row => exact row
  | written named stored updated row =>
      rw [hget] at stored
      cases stored

theorem trans (h₁ : RowAfter updates id s s') (h₂ : RowAfter more id s' s'') :
    RowAfter (updates ++ more) id s s'' := by
  cases h₁ with
  | kept unread row =>
      have hget := Store.get_congr row
      rcases unread with rfl | ⟨e, he⟩
      · cases h₂ with
        | kept unread row' => exact .kept (by rwa [← hget]) (row'.trans row)
        | written named stored updated row' => exact .written named (hget ▸ stored) updated row'
      · exact .kept (Or.inr ⟨e, he⟩) ((h₂.row_of_error (hget.trans he)).trans row)
  | written named stored updated row =>
      have hget := Store.get_of_row row
      cases h₂ with
      | kept unread row' =>
          rcases unread with rfl | ⟨e, he⟩
          · exact .written (by simpa) stored (by rwa [List.append_nil]) (row'.trans row)
          · rw [hget] at he
            cases he
      | written named' stored' updated' row' =>
          rw [hget] at stored'
          cases stored'
          exact .written (by simp [named]) stored (updated.trans updated') row'

end RowAfter

/-- An answer to a later update tells of the rows from before the first. -/
theorem UpdateAnswer.of_rowAfter (h : UpdateAnswer s' r response)
    (ha : RowAfter updates ⟨r.id⟩ s s') : UpdateAnswer s r response := by
  cases hget : s.get ⟨r.id⟩ with
  | error e =>
      have hrow : s'.handles.find? r.id = s.handles.find? r.id := ha.row_of_error hget
      cases h with
      | invalid name => exact .invalid name
      | absent name free => exact .absent name (by rwa [Dictionary.contains, ← hrow])
      | unreadable name stored unreadable => exact .unreadable name (hrow.symm.trans stored) unreadable
      | done name stored => exact .done name ((Store.get_congr hrow).symm.trans stored)
  | ok g =>
      rcases ha.get hget with ⟨g', hget', -⟩
      cases h with
      | invalid name => exact .invalid name
      | absent name free =>
          have hrow : s'.handles.contains r.id = true := Store.contains_of_get hget'
          rw [free] at hrow
          cases hrow
      | unreadable name stored unreadable =>
          rw [Store.get_of_find? stored] at hget'
          cases unreadable.symm.trans hget'
      | done name stored => exact .done name hget

theorem updatesOf_append (id : HandleId) (requested more : List RequestedHandle) :
    updatesOf id (requested ++ more) = updatesOf id requested ++ updatesOf id more :=
  List.filter_append _ _

namespace UpdatesDone

theorem refl (w : World) : UpdatesDone [] w [] w :=
  ⟨.nil, fun _ => .kept (Or.inl rfl) rfl, rfl, .refl w⟩

theorem trans {answers : List HandleResponse} (h₁ : UpdatesDone requested u responses v)
    (h₂ : UpdatesDone more v answers w) : UpdatesDone (requested ++ more) u (responses ++ answers) w := by
  refine ⟨List.rel_append h₁.answered ?_, fun id => ?_, ?_, h₁.rest.trans h₂.rest⟩
  · exact h₂.answered.imp fun r response h => h.of_rowAfter (h₁.rows ⟨r.id⟩)
  · rw [updatesOf_append]
    exact (h₁.rows id).trans (h₂.rows id)
  · rw [h₂.tables, h₁.tables]

theorem filed (h : UpdatesDone requested w responses w') (hs : w.store.Filed) : w'.store.Filed := by
  intro id g hget
  cases h.rows id with
  | kept unread row => exact hs id g ((Store.get_congr row).symm.trans hget)
  | @written h₀ h' named stored updated row =>
      rw [Store.get_of_row row] at hget
      cases hget
      exact (congrArg Handle.id updated.rest).trans (hs id h₀ stored)

/-- An update that finds no record, or is none of a handle, changes nothing. -/
theorem of_unread (hanswer : UpdateAnswer w.store r response)
    (hunread : ¬ HandleId.IsName r.id ∨ ∃ e, w.store.get ⟨r.id⟩ = .error e) (hsame : w.SameButStore w')
    (hstore : w'.store = w.store) : UpdatesDone [r] w [response] w' := by
  refine ⟨.cons hanswer .nil, fun id => .kept ?_ (by rw [hstore]), by rw [hstore], hsame⟩
  by_cases hnames : r.id = id.text ∧ HandleId.IsName r.id
  · obtain rfl : id = ⟨r.id⟩ := HandleId.text_inj.1 hnames.1.symm
    exact Or.inr (hunread.resolve_left (not_not_intro hnames.2))
  · exact Or.inl (List.filter_eq_nil_iff.2 (by simpa using hnames))

/-- An update that finds a record writes it. -/
theorem of_written {h : Handle} (hs : w.store.Filed) (hname : HandleId.IsName r.id)
    (hget : w.store.get ⟨r.id⟩ = .ok h) (hsame : w.SameButStore w')
    (hstore : w'.store = w.store.putHandle (h.updated r)) :
    UpdatesDone [r] w [.success ⟨r.id⟩] w' := by
  have hid : h.id = ⟨r.id⟩ := hs _ h hget
  have hrow : ∀ id : HandleId, w'.store.handles.find? id.text =
      if h.id.text = id.text then some (.ofHandle (h.updated r)) else w.store.handles.find? id.text :=
    fun id => by
      rw [hstore]
      exact Dictionary.find?_insert _ _ _ _
  refine ⟨.cons (.done hname hget) .nil, fun id => ?_, by rw [hstore]; rfl, hsame⟩
  by_cases hnames : r.id = id.text
  · obtain rfl : id = ⟨r.id⟩ := HandleId.text_inj.1 hnames.symm
    have hone : updatesOf ⟨r.id⟩ [r] = [r] := List.filter_eq_self.2 (by simp [hname])
    rw [hone]
    exact .written (List.cons_ne_nil _ _) hget (.one h r) ((hrow _).trans (if_pos (congrArg HandleId.text hid)))
  · have hnone : updatesOf id [r] = [] := List.filter_eq_nil_iff.2 (by simp [hnames])
    exact .kept (Or.inl hnone) ((hrow id).trans (if_neg (by rwa [hid])))

end UpdatesDone

theorem under_updateOne (hc : ∀ n call, c.storeFailure n call = none) (hs : w.store.Filed) :
    (updateOne r).Ensures (.under c) (fun response w' => UpdatesDone [r] w [response] w') w := by
  have hsame : ∀ s, w.SameButStore { w.nextTurn with store := s } := fun _ => ⟨⟨rfl, rfl, rfl, rfl⟩, rfl⟩
  rw [updateOne]
  rcases HandleId.parse_cases r.id with ⟨hname, hparse⟩ | ⟨hname, flaw, hparse⟩
  · rw [hparse]
    dsimp only
    rw [Program.ensures_bind]
    refine under_performed hc rfl ?_
    rcases w.store.get_cases ⟨r.id⟩ with ⟨hfree, hget⟩ | ⟨row, fault, hrow, hfault, hget⟩ | ⟨h, hget⟩
    all_goals rw [hget]
    · exact .of_unread (.absent hname hfree) (Or.inr ⟨_, hget⟩) (hsame _) rfl
    · exact .of_unread (.unreadable hname hrow hfault) (Or.inr ⟨_, hget⟩) (hsame _) rfl
    · have hrow : w.store.handles.contains (h.updated r).id.text = true := by
        rw [show (h.updated r).id = ⟨r.id⟩ from hs _ h hget]
        exact Store.contains_of_get hget
      have hsave : w.store.perform (.save (h.updated r)) = (.ok (), w.store.putHandle (h.updated r)) := by
        rw [Store.perform, Store.save, if_pos hrow]
        rfl
      change (Program.store (.save (h.updated r)) >>= _).Ensures _ _ _
      rw [Program.ensures_bind]
      exact under_performed hc hsave (.of_written hs hname hget ⟨⟨rfl, rfl, rfl, rfl⟩, rfl⟩ rfl)
  · rw [hparse]
    exact .of_unread (.invalid hname) (Or.inl hname) (.refl w) rfl

theorem under_update (requested : List RequestedHandle) (hc : ∀ n call, c.storeFailure n call = none)
    (hs : w.store.Filed) :
    (update requested).Ensures (.under c) (fun responses w' => UpdatesDone requested w responses w') w := by
  refine Program.ensures_mapM (I := fun requested responses w' => UpdatesDone requested w responses w')
    ?_ (.refl w)
  intro requested responses v r hdone
  exact (under_updateOne hc (hdone.filed hs)).mono fun response v' hone => hdone.trans hone

/-! ## Updates made again -/

/-- If each id occurs once there is at most one update of a handle. -/
theorem length_updatesOf_le (hd : (requested.map (·.id)).Nodup) (id : HandleId) :
    (updatesOf id requested).length ≤ 1 := by
  have hall : (updatesOf id requested).map (·.id) = List.replicate (updatesOf id requested).length id.text := by
    refine List.eq_replicate_iff.2 ⟨List.length_map _, ?_⟩
    intro text htext
    rcases List.mem_map.1 htext with ⟨r, hr, rfl⟩
    have hnames : r.id = id.text ∧ HandleId.IsName r.id := by simpa using (List.mem_filter.1 hr).2
    exact hnames.1
  have hnodup : ((updatesOf id requested).map (·.id)).Nodup := hd.sublist (List.filter_sublist.map _)
  rw [hall] at hnodup
  exact List.nodup_replicate.1 hnodup

theorem UpdatesDone.again {answers : List HandleResponse} (hd : (requested.map (·.id)).Nodup)
    (h₁ : UpdatesDone requested u responses v) (h₂ : UpdatesDone requested v answers w) :
    w.store = v.store := by
  suffices hrows : w.store.handles = v.store.handles by rw [h₂.tables, hrows]
  refine Dictionary.ext_find? fun key => ?_
  cases h₂.rows ⟨key⟩ with
  | kept unread row => exact row
  | @written h h' named stored updated row =>
      cases h₁.rows ⟨key⟩ with
      | kept unread row₁ =>
          rcases unread with hnil | ⟨e, he⟩
          · exact absurd hnil named
          · rw [← Store.get_congr row₁, stored] at he
            cases he
      | @written h₀ g named stored₁ updated₁ row₁ =>
          obtain rfl : g = h := Except.ok.inj ((Store.get_of_row row₁).symm.trans stored)
          rw [(updated₁.again (length_updatesOf_le hd ⟨key⟩)).unique updated] at row₁
          exact row.trans row₁.symm

/-! ## Updates of new handles -/

/-- The properties of one request, and those of another one over them. -/
structure Combines (r q combined : RequestedHandle) : Prop where
  dmiProperties : ∀ name, combined.dmiProperties.find? name =
    (q.dmiProperties.find? name).or (r.dmiProperties.find? name)
  publicProperties : ∀ name, combined.publicProperties.find? name =
    (q.publicProperties.find? name).or (r.publicProperties.find? name)

/-- A change of what was created is found as if it had been requested at once. -/
theorem find?_of_combined {created updated combined : Dictionary String}
    {p q both : Dictionary (Option String)} {name : String}
    (hcreated : ∀ value, created.find? name = some value ↔ p.find? name = some (some value))
    (hcombined : ∀ value, combined.find? name = some value ↔ both.find? name = some (some value))
    (hupdated : updated.find? name = valueAfter name [q] (created.find? name))
    (hboth : both.find? name = (q.find? name).or (p.find? name)) :
    updated.find? name = combined.find? name := by
  refine Option.ext fun value => ?_
  rw [hcombined, hboth, hupdated, valueAfter, List.foldl_cons, List.foldl_nil]
  cases q.find? name with
  | none => exact hcreated value
  | some change => simp

/-- What a creation stores stands under its own id. -/
theorem Inventory.Created.filed {endpoints : Endpoints} (h : Created endpoints requested w responses w')
    (hs : w.store.Filed) : w'.store.Filed := by
  intro id g hget
  cases hrow : w.store.handles.contains id.text with
  | true => exact hs id g ((Store.get_congr (h.kept id hrow)).symm.trans hget)
  | false =>
      rcases h.new id ⟨hrow, Store.contains_of_get hget⟩ with ⟨hname, r, hr, hid⟩
      rcases h.describes hname (List.mem_map.2 ⟨r, hr, hid⟩) hrow with ⟨q, g', hq, hget', hdescribes⟩
      obtain rfl : g = g' := Except.ok.inj (hget.symm.trans hget')
      have hqid : q.id = id.text := by simpa using List.find?_some hq
      exact hdescribes.id.trans (HandleId.text_inj.1 hqid)

/-- A handle that is not stored is created as it was first requested. -/
theorem created_first (topic : String) {endpoints : Endpoints} {requested : List RequestedHandle}
    (hc : ∀ n call, c.storeFailure n call = none) (hs : w.store.Filed) (hflaw : endpoints.flaw? = none)
    (hname : HandleId.IsName id.text) (hfree : w.store.handles.contains id.text = false)
    (hfirst : requested.find? (fun p => p.id = id.text) = some r) :
    ((create topic endpoints requested).run.run (World.reply c) w).2.store.Filed ∧
      ∃ h, ((create topic endpoints requested).run.run (World.reply c) w).2.store.get id = .ok h ∧
        Describes endpoints r h := by
  obtain ⟨responses, w', hrun, hcreated⟩ : ∃ responses w',
      (create topic endpoints requested).run.run (World.reply c) w = (.ok responses, w') ∧
        Created endpoints requested w responses w' :=
    creation_answers hflaw fun n batch => hc n (.insert batch)
  rw [hrun]
  have hmem : id.text ∈ requested.map (·.id) :=
    List.mem_map.2 ⟨r, List.mem_of_find?_eq_some hfirst, by simpa using List.find?_some hfirst⟩
  rcases hcreated.describes hname hmem hfree with ⟨q, h, hq, hget, hdescribes⟩
  obtain rfl : r = q := Option.some.inj (hfirst.symm.trans hq)
  exact ⟨hcreated.filed hs, h, hget, hdescribes⟩

end

/-- Updates that are made one after the other, in a run in which no call of the store fails. There is an answer for
each of them, at its position. The properties of each handle are what its updates make of them, and nothing else
changes. If no id occurs twice, the same updates change nothing when they are made again. A handle that is created
and updated once has the properties that it had got if it had been created with those of the update over its own. -/
theorem updates_done {c : Circumstances} {w : World} (requested : List RequestedHandle)
    (hc : ∀ n call, c.storeFailure n call = none) (hs : w.store.Filed) :
    ∃ responses w', (update requested).run (World.reply c) w = (responses, w') ∧
      UpdatesDone requested w responses w' ∧
      (∀ id h, w.store.get id = .ok h →
        ∃ h', w'.store.get id = .ok h' ∧ UpdatedBy (updatesOf id requested) h h') ∧
      ((requested.map (·.id)).Nodup → ∀ c' : Circumstances, (∀ n call, c'.storeFailure n call = none) →
        ((update requested).run (World.reply c') w').2.store = w'.store) ∧
      ∀ (c₁ c₂ : Circumstances) (topic : String) (endpoints : Endpoints) (id : HandleId)
        (created created' : List RequestedHandle) (r q combined : RequestedHandle),
        (∀ n call, c₁.storeFailure n call = none) → (∀ n call, c₂.storeFailure n call = none) →
        endpoints.flaw? = none → HandleId.IsName id.text → w.store.handles.contains id.text = false →
        created.find? (fun p => p.id = id.text) = some r →
        created'.find? (fun p => p.id = id.text) = some combined →
        updatesOf id requested = [q] → Combines r q combined →
        ∃ h h', ((update requested).run (World.reply c)
            ((create topic endpoints created).run.run (World.reply c₁) w).2).2.store.get id = .ok h ∧
          ((create topic endpoints created').run.run (World.reply c₂) w).2.store.get id = .ok h' ∧
          h.dmiProperties = h'.dmiProperties ∧ h.publicProperties = h'.publicProperties := by
  have hdone := (under_update requested hc hs).under
  refine ⟨_, _, rfl, hdone, fun id h hget => (hdone.rows id).get hget, ?_, ?_⟩
  · intro hd c' hc'
    exact hdone.again hd (under_update requested hc' (hdone.filed hs)).under
  · intro c₁ c₂ topic endpoints id created created' r q combined hc₁ hc₂ hflaw hname hfree hr hcombined hq
      hboth
    -- Both creations store what is described, and the update is made to what the first one stored.
    obtain ⟨hfiled, h, hget, hcreated⟩ := created_first topic hc₁ hs hflaw hname hfree hr
    obtain ⟨-, h', hget', hcreated'⟩ := created_first topic hc₂ hs hflaw hname hfree hcombined
    rcases ((under_update requested hc hfiled).under.rows id).get hget with ⟨k, hk, hupdated⟩
    rw [hq] at hupdated
    refine ⟨k, h', hk, hget', Dictionary.ext_find? fun name => ?_, Dictionary.ext_find? fun name => ?_⟩
    · exact find?_of_combined (hcreated.dmiProperties name) (hcreated'.dmiProperties name)
        (hupdated.dmiProperties name) (hboth.dmiProperties name)
    · exact find?_of_combined (hcreated.publicProperties name) (hcreated'.publicProperties name)
        (hupdated.publicProperties name) (hboth.publicProperties name)

/-- A request for a handle with one property. -/
def propertyRequest (id name : String) (value : Option String) : RequestedHandle :=
  ⟨id, .ofList [(name, value)], .empty, none, none⟩

/-- A world in which only one handle is stored. -/
def oneHandleWorld : World :=
  { World.empty with store := Store.empty.putHandle { (default : Handle) with id := ⟨"a"⟩ } }

/-- One of two handles is stored, and gets a property; the other one is not, and answered so. Had it been created
with the property that is taken away, it would be as if it had been created without a value. -/
theorem updates_done_both :
    ∃ w', (update [propertyRequest "a" "x" (some "1"), propertyRequest "b" "x" none]).run
        (World.reply World.undisturbed) oneHandleWorld =
          ([.success ⟨"a"⟩, .failure ⟨"b"⟩ .doesNotExist], w') ∧
      (∃ h, w'.store.get ⟨"a"⟩ = .ok h ∧ h.dmiProperties.find? "x" = some "1") ∧
      ((update [propertyRequest "a" "x" (some "1"), propertyRequest "b" "x" none]).run
        (World.reply World.undisturbed) w').2.store = w'.store ∧
      ∃ h h', ((update [propertyRequest "a" "x" (some "1"), propertyRequest "b" "x" none]).run
          (World.reply World.undisturbed)
            ((create "lcm" ⟨"dmi", "", ""⟩ [propertyRequest "b" "x" (some "0")]).run.run
              (World.reply World.undisturbed) oneHandleWorld).2).2.store.get ⟨"b"⟩ = .ok h ∧
        ((create "lcm" ⟨"dmi", "", ""⟩ [propertyRequest "b" "x" none]).run.run
          (World.reply World.undisturbed) oneHandleWorld).2.store.get ⟨"b"⟩ = .ok h' ∧
        h.dmiProperties = h'.dmiProperties ∧ h.publicProperties = h'.publicProperties := by
  have hfiled : oneHandleWorld.store.Filed := (Store.sound_empty.putHandle _).filed
  have hget : oneHandleWorld.store.get ⟨"a"⟩ = .ok { (default : Handle) with id := ⟨"a"⟩ } :=
    HandleRow.handle_ofHandle _
  have ha : HandleId.IsName "a" := by decide
  have hb : HandleId.IsName "b" := by decide
  have hofb : updatesOf ⟨"b"⟩ [propertyRequest "a" "x" (some "1"), propertyRequest "b" "x" none] =
      [propertyRequest "b" "x" none] := by decide
  have hofa : updatesOf ⟨"a"⟩ [propertyRequest "a" "x" (some "1"), propertyRequest "b" "x" none] =
      [propertyRequest "a" "x" (some "1")] := by decide
  rcases updates_done [propertyRequest "a" "x" (some "1"), propertyRequest "b" "x" none]
    (c := World.undisturbed) (fun _ _ => rfl) hfiled with ⟨responses, w', hrun, hdone, hread, hagain, hcreated⟩
  obtain rfl : responses = [.success ⟨"a"⟩, .failure ⟨"b"⟩ .doesNotExist] := by
    rcases hdone.answered with _ | ⟨hfirst, _ | ⟨hsecond, _ | _⟩⟩
    have hreada : ∀ {row e}, oneHandleWorld.store.handles.find? "a" = some row → row.handle ≠ .error e := by
      intro row e hrow hfault
      have hgiven : oneHandleWorld.store.get ⟨"a"⟩ = row.handle := Store.get_of_find? hrow
      cases (hgiven.trans hfault).symm.trans hget
    cases hfirst with
    | invalid name => exact absurd ha name
    | absent name free => cases free
    | unreadable name stored unreadable => exact absurd unreadable (hreada stored)
    | done name stored =>
        cases hsecond with
        | invalid name => exact absurd hb name
        | absent name free => rfl
        | unreadable name stored unreadable => cases stored
        | done name stored => cases stored
  rcases hread _ _ hget with ⟨h, hh, hupdated⟩
  rw [hofa] at hupdated
  refine ⟨w', hrun, ⟨h, hh, hupdated.dmiProperties "x"⟩, hagain (by decide) _ fun _ _ => rfl, ?_⟩
  refine hcreated _ _ "lcm" _ ⟨"b"⟩ _ _ _ _ _ (fun _ _ => rfl) (fun _ _ => rfl) (by decide) hb rfl rfl rfl hofb
    ⟨fun name => ?_, fun name => rfl⟩
  simp only [propertyRequest, Dictionary.ofList, List.foldl_cons, List.foldl_nil, Dictionary.find?_insert,
    Dictionary.find?_empty]
  split <;> rfl

end CmInventory
