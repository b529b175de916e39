import CmInventory.Proofs.Inventory.NewHandles

/-!
# Answers to creations

A creation gives one response for every requested handle, at its position (`creation_answers`). What the
response is depends on the position in two ways: an id that was asked for before is refused while the
request is gone through (`ensures_screened`), and an id that is stored already only when the store has
answered. The ids that come to the store are all different, so the store names exactly those that it had
(`response_of_registers`), and what it stored is what the request describes (`Describes`).

Nothing is required of the store.
-/

namespace CmInventory

/-! ## Valid ids -/

/-- A text may be the id of a handle: it is not empty, and it has ASCII letters, digits, hyphens and
underscores only. -/
def HandleId.IsName (text : String) : Prop :=
  text ≠ "" ∧ ∀ c ∈ text.toList,
    ('A' ≤ c ∧ c ≤ 'Z') ∨ ('a' ≤ c ∧ c ≤ 'z') ∨ ('0' ≤ c ∧ c ≤ '9') ∨ c = '-' ∨ c = '_'

-- Searched for, the second part may be decided by going through all characters there are.
instance : DecidablePred HandleId.IsName := fun text =>
  @instDecidableAnd _ _ inferInstance (List.decidableBAll _ text.toList)

theorem HandleId.isIdCharacter_iff (c : Char) : isIdCharacter c = true ↔
    ('A' ≤ c ∧ c ≤ 'Z') ∨ ('a' ≤ c ∧ c ≤ 'z') ∨ ('0' ≤ c ∧ c ≤ '9') ∨ c = '-' ∨ c = '_' := by
  have hupper : c.isUpper = true ↔ 'A' ≤ c ∧ c ≤ 'Z' := decide_eq_true_iff
  have hbetween : ∀ first last : Char,
      (decide (first ≤ c) && decide (c ≤ last)) = true ↔ first ≤ c ∧ c ≤ last := by simp
  have hlower : c.isLower = true ↔ 'a' ≤ c ∧ c ≤ 'z' := hbetween 'a' 'z'
  have hdigit : c.isDigit = true ↔ '0' ≤ c ∧ c ≤ '9' := hbetween '0' '9'
  change ((((c.isUpper || c.isLower) || c.isDigit) || decide (c = '-')) || decide (c = '_')) = true ↔ _
  simp only [Bool.or_eq_true, hupper, hlower, hdigit, decide_eq_true_eq, or_assoc]

/-- The ids that are taken are the names. -/
theorem HandleId.parse_cases (text : String) :
    (IsName text ∧ parse text = .ok ⟨text⟩) ∨ (¬ IsName text ∧ ∃ flaw, parse text = .error flaw) := by
  rw [parse]
  by_cases hempty : text = ""
  · refine Or.inr ⟨fun hname => hname.1 hempty, .empty, ?_⟩
    rw [if_pos (by simpa using hempty)]
  rw [if_neg (by simpa using hempty)]
  by_cases hall : text.toList.all isIdCharacter = true
  · refine Or.inl ⟨⟨hempty, fun c hc => ?_⟩, if_pos hall⟩
    exact (isIdCharacter_iff c).1 (List.all_eq_true.1 hall c hc)
  · refine Or.inr ⟨fun hname => hall ?_, .invalidCharacters, if_neg hall⟩
    exact List.all_eq_true.2 fun c hc => (isIdCharacter_iff c).2 (hname.2 c hc)

theorem HandleId.isValid_of_isName {id : HandleId} (h : IsName id.text) : id.isValid = true := by
  rcases parse_cases id.text with ⟨-, hparse⟩ | ⟨hnot, -⟩
  · rw [isValid, hparse]
  · exact absurd h hnot

namespace Inventory

variable {w w' : World} {endpoints : Endpoints} {requested : List RequestedHandle}

/-! ## Screening -/

/-- What becomes of a requested handle, if `again` says whether its id was asked for before. -/
inductive Screened (endpoints : Endpoints) (r : RequestedHandle) (again : Prop) : Candidate → Prop
  | invalid (name : ¬ HandleId.IsName r.id) :
      Screened endpoints r again (.refused (.failure ⟨r.id⟩ .invalidId))
  | repeated (name : HandleId.IsName r.id) (seen : again) :
      Screened endpoints r again (.refused (.failure ⟨r.id⟩ .alreadyExists))
  | admitted (name : HandleId.IsName r.id) (new : ¬ again) (now : Instant) :
      Screened endpoints r again (.admitted (newHandle ⟨r.id⟩ endpoints r now))

theorem Screened.congr {r : RequestedHandle} {again again' : Prop} {candidate : Candidate}
    (h : Screened endpoints r again candidate) (hiff : HandleId.IsName r.id → (again ↔ again')) :
    Screened endpoints r again' candidate := by
  cases h with
  | invalid name => exact .invalid name
  | repeated name seen => exact .repeated name ((hiff name).1 seen)
  | admitted name new now => exact .admitted name (fun hagain => new ((hiff name).2 hagain)) now

/-- An id is among the given ones or was asked for before. -/
def AskedBefore (seen : List HandleId) (before : List RequestedHandle) (r : RequestedHandle) : Prop :=
  ⟨r.id⟩ ∈ seen ∨ ∃ q ∈ before, q.id = r.id

/-- There is a candidate for each requested handle, at its position. -/
def ScreenedInOrder (endpoints : Endpoints) (seen : List HandleId) (requested : List RequestedHandle)
    (candidates : List Candidate) : Prop :=
  candidates.length = requested.length ∧ ∀ before r after, requested = before ++ r :: after →
    ∃ candidate, candidates[before.length]? = some candidate ∧
      Screened endpoints r (AskedBefore seen before r) candidate

/-- The handle in front is screened with the ids that were seen, and the others with its id besides if it
is a name. -/
theorem ScreenedInOrder.cons {seen more : List HandleId} {r : RequestedHandle}
    {candidate : Candidate} {candidates : List Candidate}
    (hfirst : Screened endpoints r (⟨r.id⟩ ∈ seen) candidate)
    (hmore : ∀ id : HandleId, HandleId.IsName id.text → (id ∈ more ↔ id ∈ seen ∨ r.id = id.text))
    (hrest : ScreenedInOrder endpoints more requested candidates) :
    ScreenedInOrder endpoints seen (r :: requested) (candidate :: candidates) := by
  refine ⟨congrArg Nat.succ hrest.1, ?_⟩
  intro before q after heq
  cases before with
  | nil =>
      cases heq
      refine ⟨candidate, rfl, hfirst.congr fun _ => ?_⟩
      simp [AskedBefore]
  | cons p before =>
      rw [List.cons_append, List.cons.injEq] at heq
      rcases heq with ⟨rfl, heq⟩
      rcases hrest.2 before q after heq with ⟨other, hother, hscreened⟩
      refine ⟨other, hother, hscreened.congr fun hname => ?_⟩
      rw [AskedBefore, AskedBefore, hmore ⟨q.id⟩ hname]
      simp [or_assoc]

theorem ensures_screened {seen : List HandleId} :
    (screen endpoints seen requested).Ensures .alone
      (fun candidates _ => ScreenedInOrder endpoints seen requested candidates) w := by
  induction requested generalizing seen w with
  | nil => exact ⟨rfl, fun before r after heq => by simp at heq⟩
  | cons r rest ih =>
      rw [screen]
      rcases HandleId.parse_cases r.id with ⟨hname, hparse⟩ | ⟨hname, flaw, hparse⟩
      · rw [hparse]
        dsimp only
        split
        · rename_i hseen
          have hseen : ⟨r.id⟩ ∈ seen := List.contains_iff_mem.1 hseen
          refine ih.bind fun more _ hmore => ?_
          refine .cons (.repeated hname hseen) (fun id _ => ?_) hmore
          refine (or_iff_left_of_imp ?_).symm
          rintro hid
          rwa [HandleId.text_inj.1 (show (⟨r.id⟩ : HandleId).text = id.text from hid)] at hseen
        · rename_i hnew
          have hnew : ⟨r.id⟩ ∉ seen := fun hmem => hnew (List.contains_iff_mem.2 hmem)
          rw [Program.ensures_bind]
          refine ensures_quiet trivial fun now _ _ => ?_
          refine ih.bind fun more _ hmore => ?_
          refine .cons (.admitted hname hnew now) (fun id _ => ?_) hmore
          rw [List.mem_cons, or_comm, eq_comm (a := id), ← HandleId.text_inj]
      · rw [hparse]
        refine ih.bind fun more _ hmore => ?_
        refine .cons (.invalid hname) (fun id hid => ?_) hmore
        refine (or_iff_left_of_imp ?_).symm
        intro hsame
        rw [← hsame] at hid
        exact absurd hid hname

theorem eq_take_cons_drop {α : Type} {xs : List α} {i : Nat} (hi : i < xs.length) :
    xs = xs.take i ++ xs[i] :: xs.drop (i + 1) := by
  rw [← List.drop_eq_getElem_cons hi, List.take_append_drop]

/-- Every candidate is the one of a requested handle. -/
theorem ScreenedInOrder.exists_of_mem {seen : List HandleId} {candidates : List Candidate}
    {candidate : Candidate} (h : ScreenedInOrder endpoints seen requested candidates)
    (hmem : candidate ∈ candidates) :
    ∃ r ∈ requested, ∃ again, Screened endpoints r again candidate := by
  rcases List.mem_iff_getElem.1 hmem with ⟨i, hi, rfl⟩
  have hi' : i < requested.length := by rwa [← h.1]
  rcases h.2 _ _ _ (eq_take_cons_drop hi') with ⟨other, hother, hscreened⟩
  rw [List.length_take_of_le hi'.le, List.getElem?_eq_getElem hi] at hother
  cases hother
  exact ⟨requested[i], List.getElem_mem hi', _, hscreened⟩

/-! ## Registering different handles -/

theorem error?_alreadyExists (committed ids : List HandleId) (id : HandleId) :
    (⟨committed, [], ids.map fun other => (other, .alreadyExists other)⟩ : BatchResult).error? id =
      if id ∈ ids then some (.alreadyExists id) else none := by
  rw [BatchResult.error?, List.find?_map]
  cases hfind : ids.find? ((fun f : HandleId × InventoryError => decide (f.1 = id)) ∘
      fun other => (other, .alreadyExists other)) with
  | none =>
      have hnot : id ∉ ids := fun hmem => by simpa using List.find?_eq_none.1 hfind id hmem
      rw [if_neg hnot]
      rfl
  | some other =>
      obtain rfl : other = id := by simpa using List.find?_some hfind
      rw [if_pos (List.mem_of_find?_eq_some hfind)]
      rfl

/-- The response for a handle of a batch with different ids is a failure exactly if there was a row under
its id. -/
theorem response_of_registers {topic : String} {handles : List Handle} {result : BatchResult}
    (h : Registers topic handles w result w') (hadv : ∀ g ∈ handles, g.lifecycle = .advised)
    (hd : (handles.map (·.id)).Nodup) {g : Handle} (hg : g ∈ handles) :
    creationResponse result g.id =
      if w.store.handles.contains g.id.text then .failure g.id .alreadyExists else .success g.id := by
  rcases h with ⟨admitted, haccepts, -, rfl, -⟩
  have hids : admitted.map (·.id) = handles.map (·.id) := by
    rw [haccepts.map_id, advisedOf, List.filter_eq_self.2 fun g hg => decide_eq_true (hadv g hg)]
  have hnone : rejections handles = [] := by
    rw [rejections, List.filter_eq_nil_iff.2 fun g hg => by simp [hadv g hg], List.map_nil]
  have hmem : g.id ∈ handles.map (·.id) := List.mem_map_of_mem hg
  have hnamed : g.id ∈ (w.store.insert admitted).1 ↔ w.store.handles.contains g.id.text = true := by
    rw [← List.count_pos_iff, Store.count_insert, hids, List.count_eq_one_of_mem hd hmem]
    cases w.store.handles.contains g.id.text <;> simp
  have herror : (BatchResult.append ⟨[], [], rejections handles⟩
      (reportNew (w.store.insert admitted).1 admitted)).error? g.id =
        if w.store.handles.contains g.id.text then some (.alreadyExists g.id) else none := by
    rw [hnone, reportNew, hids]
    refine (error?_alreadyExists _ _ _).trans ?_
    simp only [List.mem_filter, hmem, true_and, List.contains_iff_mem, hnamed]
  rw [creationResponse, herror]
  cases w.store.handles.contains g.id.text <;> rfl

/-! ## Answers -/

/-- A record is that of a requested handle to which nothing has happened, whatever its properties. -/
structure IsNew (endpoints : Endpoints) (r : RequestedHandle) (h : Handle) : Prop where
  id : h.id = ⟨r.id⟩
  endpoints : h.endpoints = endpoints
  moduleSetTag : h.moduleSetTag = r.moduleSetTag
  lifecycle : h.lifecycle = .advised
  lockReason : h.status.lockReason = none
  dataSync : h.status.dataSync = r.dataSync.getD false
  operational : h.status.operational = .unrequested

/-- A record is that of a new handle as it was requested. -/
structure Describes (endpoints : Endpoints) (r : RequestedHandle) (h : Handle) : Prop extends
    IsNew endpoints r h where
  dmiProperties : ∀ name value,
    h.dmiProperties.find? name = some value ↔ r.dmiProperties.find? name = some (some value)
  publicProperties : ∀ name value,
    h.publicProperties.find? name = some value ↔ r.publicProperties.find? name = some (some value)

theorem find?_presentProperties (properties : Dictionary (Option String)) (name value : String) :
    (presentProperties properties).find? name = some value ↔
      properties.find? name = some (some value) := by
  rw [presentProperties, Dictionary.find?_filterMap, Option.bind_eq_some_iff]
  exact ⟨fun ⟨_, hfind, hvalue⟩ => hfind.trans (congrArg some hvalue), fun hfind => ⟨_, hfind, rfl⟩⟩

theorem describes_accepted (id : HandleId) (endpoints : Endpoints) (r : RequestedHandle)
    (h : id = ⟨r.id⟩) (now later : Instant) :
    Describes endpoints r (accepted (newHandle id endpoints r now) later) :=
  ⟨⟨h, rfl, rfl, rfl, rfl, rfl, rfl⟩, find?_presentProperties _, find?_presentProperties _⟩

/-- The answer to a requested handle, if `again` says whether its id was asked for before. -/
inductive Answered (endpoints : Endpoints) (w w' : World) (r : RequestedHandle) (again : Prop) :
    HandleResponse → Prop
  | invalid (name : ¬ HandleId.IsName r.id) : Answered endpoints w w' r again (.failure ⟨r.id⟩ .invalidId)
  | taken (name : HandleId.IsName r.id) (taken : w.store.handles.contains r.id = true ∨ again) :
      Answered endpoints w w' r again (.failure ⟨r.id⟩ .alreadyExists)
  | created (name : HandleId.IsName r.id) (free : w.store.handles.contains r.id = false)
      (first : ¬ again) {h : Handle} (stored : w'.store.get ⟨r.id⟩ = .ok h)
      (describes : Describes endpoints r h) : Answered endpoints w w' r again (.success ⟨r.id⟩)

/-- What a creation comes to. There is a response for each requested handle, at its position. The rows that
were there are kept, and there are no new ones but those of requested handles. -/
structure Created (endpoints : Endpoints) (requested : List RequestedHandle) (w : World)
    (responses : List HandleResponse) (w' : World) : Prop where
  length : responses.length = requested.length
  answered : ∀ before r after, requested = before ++ r :: after →
    ∃ response, responses[before.length]? = some response ∧
      Answered endpoints w w' r (∃ q ∈ before, q.id = r.id) response
  kept : ∀ id : HandleId, w.store.handles.contains id.text = true →
    w'.store.handles.find? id.text = w.store.handles.find? id.text
  new : ∀ id, w.store.Gains w'.store id → HandleId.IsName id.text ∧ ∃ r ∈ requested, r.id = id.text

/-- Every response is for the handle at its position. -/
theorem Created.map_id {responses : List HandleResponse} (h : Created endpoints requested w responses w') :
    responses.map (·.id) = requested.map fun r => ⟨r.id⟩ := by
  refine List.ext_getElem (by simp [h.length]) fun i hi hi' => ?_
  rw [List.length_map] at hi hi'
  rcases h.answered _ _ _ (eq_take_cons_drop hi') with ⟨response, hresponse, hanswered⟩
  rw [List.length_take_of_le hi'.le, List.getElem?_eq_getElem hi, Option.some.injEq] at hresponse
  rw [List.getElem_map, List.getElem_map, hresponse]
  cases hanswered <;> rfl

/-- The first request of an id that is not taken is granted. -/
theorem Created.describes {responses : List HandleResponse} {id : HandleId}
    (h : Created endpoints requested w responses w') (hname : HandleId.IsName id.text)
    (hmem : id.text ∈ requested.map (·.id)) (hfree : w.store.handles.contains id.text = false) :
    ∃ q g, requested.find? (fun p => p.id = id.text) = some q ∧ w'.store.get id = .ok g ∧
      Describes endpoints q g := by
  rcases List.mem_map.1 hmem with ⟨p, hp, hpid⟩
  obtain ⟨q, hq⟩ : ∃ q, requested.find? (fun p => p.id = id.text) = some q :=
    Option.isSome_iff_exists.1 (List.find?_isSome.2 ⟨p, hp, by simpa using hpid⟩)
  rcases List.find?_eq_some_iff_append.1 hq with ⟨hid, before, after, hsplit, hfirst⟩
  obtain rfl : id = ⟨q.id⟩ := HandleId.text_inj.1 (by simpa using Eq.symm (of_decide_eq_true hid))
  rcases h.answered before q after hsplit with ⟨response, -, hanswered⟩
  cases hanswered with
  | invalid name => exact absurd hname name
  | taken name taken =>
      rcases taken with hrow | ⟨p, hp, hid⟩
      · rw [hfree] at hrow
        cases hrow
      · exact absurd hid (by simpa using hfirst p hp)
  | created name free first stored describes => exact ⟨q, _, hq, stored, describes⟩

theorem created_of_registers {topic : String} {candidates : List Candidate} {result : BatchResult}
    (hscreened : ScreenedInOrder endpoints [] requested candidates)
    (hadv : ∀ h ∈ admittedHandles candidates, h.lifecycle = .advised)
    (hd : ((admittedHandles candidates).map (·.id)).Nodup)
    (h : Registers topic (admittedHandles candidates) w result w') :
    Created endpoints requested w (candidates.map (Candidate.response result)) w' := by
  have htold := h.told
  refine ⟨by rw [List.length_map, hscreened.1], ?_, ?_, ?_⟩
  · intro before r after heq
    rcases hscreened.2 before r after heq with ⟨candidate, hcandidate, hr⟩
    refine ⟨candidate.response result, by rw [List.getElem?_map, hcandidate]; rfl, ?_⟩
    have hr := hr.congr fun _ => (by simp [AskedBefore] :
      AskedBefore [] before r ↔ ∃ q ∈ before, q.id = r.id)
    cases hr with
    | invalid name => exact .invalid name
    | repeated name seen => exact .taken name (Or.inr seen)
    | admitted name new now =>
        have hmem : newHandle ⟨r.id⟩ endpoints r now ∈ admittedHandles candidates :=
          List.mem_filterMap.2 ⟨_, List.mem_of_getElem? hcandidate, rfl⟩
        have hresponse : creationResponse result ⟨r.id⟩ =
            if w.store.handles.contains r.id then .failure ⟨r.id⟩ .alreadyExists
            else .success ⟨r.id⟩ := response_of_registers h hadv hd hmem
        change Answered endpoints w w' r _ (creationResponse result ⟨r.id⟩)
        rw [hresponse]
        by_cases hrow : w.store.handles.contains r.id = true
        · rw [if_pos hrow]
          exact .taken name (Or.inl hrow)
        · rw [if_neg hrow]
          rw [Bool.not_eq_true] at hrow
          have hadvised : newHandle ⟨r.id⟩ endpoints r now ∈ advisedOf (admittedHandles candidates) :=
            List.mem_filter.2 ⟨hmem, rfl⟩
          have hgains : w.store.Gains w'.store ⟨r.id⟩ :=
            (htold.gained _).2 ⟨hrow, List.mem_map.2 ⟨_, hadvised, rfl⟩⟩
          rcases htold.stored _ hgains with ⟨g, hg, hid, -, later, hget⟩
          -- The ids are different, so that the stored handle is this one.
          obtain rfl := List.inj_on_of_nodup_map hd hg hmem hid
          exact .created name hrow new hget (describes_accepted _ _ _ rfl _ _)
  · intro id hrow
    refine htold.kept id fun hgains => ?_
    rw [hgains.1] at hrow
    cases hrow
  · intro id hgains
    rcases List.mem_map.1 ((htold.gained id).1 hgains).2 with ⟨g, hg, rfl⟩
    have hg := (List.mem_filter.1 hg).1
    rcases List.mem_filterMap.1 hg with ⟨candidate, hcandidate, heq⟩
    rcases hscreened.exists_of_mem hcandidate with ⟨r, hr, again, hfound⟩
    cases hfound with
    | invalid name => cases heq
    | repeated name seen => cases heq
    | admitted name new now =>
        cases heq
        exact ⟨name, r, hr, rfl⟩

theorem ensures_created {topic : String} (hflaw : endpoints.flaw? = none) :
    (create topic endpoints requested).run.Ensures .alone
      (fun result w' => ∃ responses, result = .ok responses ∧
        Created endpoints requested w responses w') w := by
  rw [create, hflaw, Action.run_lift, Program.ensures_bind]
  refine (ensures_screen.and ensures_screened).bind ?_
  rintro candidates w₁ ⟨⟨hsame, hd, hall⟩, hscreened⟩
  refine ensures_registers.bind fun result w₂ hregisters => ?_
  exact ⟨_, rfl, created_of_registers hscreened (fun h hh => (hall h hh).2) hd
    (hregisters.of_same hsame)⟩

end Inventory

open Inventory

/-- A creation with services as they should be gives one response for each requested handle, in their
order, whatever the store holds, if the insertion does not fail for reasons of the store. -/
theorem creation_answers {c : Circumstances} {topic : String} {endpoints : Endpoints}
    {requested : List RequestedHandle} {w : World} (hflaw : endpoints.flaw? = none)
    (hc : ∀ n batch, c.storeFailure n (.insert batch) = none) :
    ∃ responses w', (create topic endpoints requested).run.run (World.reply c) w = (.ok responses, w') ∧
      Created endpoints requested w responses w' := by
  have hasks : (create topic endpoints requested).run.Asks Request.InsertsOnly :=
    asks_create trivial (fun _ => trivial) fun _ => insertsOnly_announce
  rcases World.run_of_asks hasks (Request.InsertsOnly.deletes hc) (ensures_created (w := w) hflaw) with
    ⟨responses, hresponses, hcreated⟩
  exact ⟨responses, _, Prod.ext hresponses rfl, hcreated⟩

/-- A request for a handle without properties. -/
def plainRequest (id : String) : RequestedHandle :=
  ⟨id, .empty, .empty, none, none⟩

/-- Of a handle that is requested twice only the first is created. -/
theorem creation_answers_repeated :
    ∃ w', (create "lcm" ⟨"dmi", "", ""⟩ [plainRequest "a", plainRequest "a"]).run.run
        (World.reply World.undisturbed) .empty =
      (.ok [.success ⟨"a"⟩, .failure ⟨"a"⟩ .alreadyExists], w') := by
  obtain ⟨responses, w', hrun, hcreated⟩ : ∃ responses w',
      (create "lcm" ⟨"dmi", "", ""⟩ [plainRequest "a", plainRequest "a"]).run.run
        (World.reply World.undisturbed) .empty = (.ok responses, w') ∧ Created _ _ _ responses w' :=
    creation_answers (by decide) fun _ _ => rfl
  have hname : HandleId.IsName "a" := by simp [HandleId.IsName]
  rcases hcreated.answered [] _ _ rfl with ⟨first, hfirst, hanswered⟩
  rcases hcreated.answered [_] _ [] rfl with ⟨second, hsecond, hagain⟩
  obtain ⟨x, y, rfl⟩ := List.length_eq_two.1 hcreated.length
  cases hfirst
  cases hsecond
  cases hanswered with
  | invalid name => exact absurd hname name
  | taken name taken => simp [World.empty, Store.empty, Dictionary.contains, Dictionary.find?_empty] at taken
  | created =>
      cases hagain with
      | invalid name => exact absurd hname name
      | taken => exact ⟨w', hrun⟩
      | created name free first => exact absurd ⟨_, List.mem_singleton_self _, rfl⟩ first

end CmInventory
