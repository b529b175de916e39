import CmInventory.Json.Decoder
import CmInventory.Proofs.Json.ReadBack

/-!
# Lossless pairs of a writer and a decoder

A writer and a decoder are lossless if the decoder takes every value back out of what the writer made of
it (`Lossless`). The kinds of values have their lemmas here; a record is lossless if its members have
different names and each of them is taken back (`record_members`).
-/

namespace CmInventory

theorem Dictionary.foldl_insert_entries {β : Type} (d : Dictionary β) :
    d.entries.foldl (fun found e => found.insert e.1 e.2) .empty = d := by
  have hfold : ∀ (entries : List (String × β)) (found : Dictionary β) (key : String),
      entries.Pairwise (fun a b => a.1 < b.1) →
      (entries.foldl (fun found e => found.insert e.1 e.2) found).find? key =
        (Dictionary.lookup key entries).or (found.find? key) := by
    -- A later entry with the same key would win, but there is none: the keys ascend.
    intro entries
    induction entries with
    | nil =>
        intro found key _
        rfl
    | cons e rest ih =>
        rcases e with ⟨k, v⟩
        intro found key hasc
        rcases List.pairwise_cons.1 hasc with ⟨hk, hrest⟩
        rw [List.foldl_cons, ih _ _ hrest, Dictionary.find?_insert, Dictionary.lookup]
        by_cases h : k = key
        · subst h
          simp [Dictionary.lookup_eq_none_of_lt hk]
        · simp [h]
  refine Dictionary.ext_find? fun key => ?_
  rw [hfold d.entries .empty key d.ascending, Dictionary.find?_empty, Option.or_none]
  rfl

namespace Json

/-- A writer and a decoder that takes back what was written, if arrays and objects may still be entered
to the given depth. -/
structure Lossless {α : Type} (toJson : α → Value) (d : Decoder α) (depth : Nat) : Prop where
  exact : ∀ a, (toJson a).HasExactNumbers
  takes : ∀ a ctx, depth ≤ ctx.nesting → d ctx (toJson a).tree = .ok a

namespace Lossless

variable {α β : Type} {toJson : α → Value} {d : Decoder α} {depth : Nat}

theorem decode_render (h : Lossless toJson d depth) (hd : depth ≤ greatestNesting) (a : α) :
    decode d (toJson a).render = .ok a := by
  simp [decode, ofText_render (h.exact a), h.takes a ⟨greatestNesting, false⟩ hd]

/-! ## Kinds of values -/

theorem text : Lossless Value.text Decoder.text 0 where
  exact := fun _ => by simp [Value.HasExactNumbers]
  takes := fun _ _ _ => rfl

theorem bool : Lossless Value.bool Decoder.bool 0 where
  exact := fun _ => by simp [Value.HasExactNumbers]
  takes := fun _ _ _ => by rw [Value.tree]; rfl

theorem enumeration {name : α → String} {ofName? : String → Option α}
    (h : ∀ a, ofName? (name a) = some a) :
    Lossless (fun a => .text (name a)) (Decoder.enumeration ofName?) 0 where
  exact := fun _ => by simp [Value.HasExactNumbers]
  takes := fun a _ _ => by simp [Value.tree, Decoder.enumeration, h a]

theorem parsedText {text : α → String} {parse : String → Option α}
    (h : ∀ a, parse (text a) = some a) :
    Lossless (fun a => .text (text a)) (Decoder.parsedText parse) 0 where
  exact := fun _ => by simp [Value.HasExactNumbers]
  takes := fun a _ _ => by simp [Value.tree, Decoder.parsedText, h a]

theorem map (h : Lossless toJson d depth) {f : α → β} {g : β → α} (hfg : ∀ b, f (g b) = b) :
    Lossless (fun b => toJson (g b)) (d.map f) depth where
  exact := fun b => h.exact (g b)
  takes := fun b ctx hctx => by simp [Decoder.map, h.takes (g b) ctx hctx, Except.map, hfg b]

/-- Numbers below a bound, where none of them is too large to be kept as an integer. -/
theorem takes_natural {n bound : Nat} (h : n < bound) (ctx : Context) :
    Decoder.natural bound ctx (Value.natural n).tree = .ok n := by
  have hn : (n : Int) < bound := by omega
  simp [Value.natural, Value.tree, Decoder.natural, hn]

theorem takes_nullable (h : Lossless toJson d depth) (hnull : ∀ a, toJson a ≠ .null) (a : α)
    (ctx : Context) (hctx : depth ≤ ctx.nesting) :
    d.nullable ctx (toJson a).tree = .ok (some a) := by
  have hne : (toJson a).tree ≠ .null := by
    have := hnull a
    cases hv : toJson a <;> simp_all [Value.tree]
  unfold Decoder.nullable
  split
  · contradiction
  · simp [h.takes a ctx hctx, Except.map]

/-- A value that may be lacking, and is null then. -/
theorem nullable (h : Lossless toJson d depth) (hnull : ∀ a, toJson a ≠ .null) {write : Option α → Value}
    (hnone : write none = .null) (hsome : ∀ a, write (some a) = toJson a) :
    Lossless write d.nullable depth where
  exact := fun o => by
    cases o with
    | none => simp [hnone, Value.HasExactNumbers]
    | some a => exact hsome a ▸ h.exact a
  takes := fun o ctx hctx => by
    cases o with
    | none =>
        rw [hnone]
        rfl
    | some a =>
        rw [hsome]
        exact h.takes_nullable hnull a ctx hctx

theorem optionalText : Lossless Value.optionalText Decoder.text.nullable 0 :=
  text.nullable (fun _ => Value.noConfusion) rfl fun _ => rfl

theorem enter_succ (ctx : Context) (h : 0 < ctx.nesting) :
    Decoder.enter ctx = .ok { ctx with nesting := ctx.nesting - 1 } := by
  rcases ctx with ⟨_ | n, b⟩
  · exact absurd h (Nat.lt_irrefl 0)
  · rfl

theorem listItems_map (h : Lossless toJson d depth) (ctx : Context) (hctx : depth ≤ ctx.nesting)
    (items : List α) :
    Decoder.listItems d ctx (Value.itemTrees (items.map toJson)) = .ok items := by
  induction items with
  | nil => rfl
  | cons a rest ih =>
      simp only [List.map_cons, Value.itemTrees, Decoder.listItems, h.takes a ctx hctx, ih]
      rfl

theorem allExact_map (h : ∀ a, (toJson a).HasExactNumbers) (items : List α) :
    Value.AllExact (items.map toJson) := by
  induction items with
  | nil => trivial
  | cons a rest ih => exact ⟨h a, ih⟩

theorem list (h : Lossless toJson d depth) :
    Lossless (fun items : List α => .array (items.map toJson)) d.list (depth + 1) where
  exact := fun items => by
    rw [Value.HasExactNumbers]
    exact allExact_map h.exact items
  takes := fun items ctx hctx => by
    have hin := listItems_map h { ctx with nesting := ctx.nesting - 1 }
      (show depth ≤ ctx.nesting - 1 by omega) items
    simp only [Value.tree, Decoder.list, enter_succ ctx (by omega)]
    show (do let as ← Decoder.listItems d _ _; Decoder.atEnd true as) = _
    rw [hin]
    rfl

theorem dictionaryMembers_entries (h : Lossless toJson d depth) (ctx : Context)
    (hctx : depth ≤ ctx.nesting) (entries : List (String × α)) (found : Dictionary α) :
    Decoder.dictionaryMembers d ctx found
        (Value.memberTrees (entries.map fun e => (e.1, toJson e.2))) =
      .ok (entries.foldl (fun found e => found.insert e.1 e.2) found) := by
  induction entries generalizing found with
  | nil => rfl
  | cons e rest ih =>
      simp only [List.map_cons, Value.memberTrees, Decoder.dictionaryMembers, h.takes e.2 ctx hctx,
        List.foldl_cons]
      exact ih _

theorem allExactMembers_map (h : ∀ a, (toJson a).HasExactNumbers) (entries : List (String × α)) :
    Value.AllExactMembers (entries.map fun e => (e.1, toJson e.2)) := by
  induction entries with
  | nil => trivial
  | cons e rest ih => exact ⟨h e.2, ih⟩

theorem dictionary (h : Lossless toJson d depth) :
    Lossless (Value.ofDictionary toJson) (Decoder.dictionary d) (depth + 1) where
  exact := fun m => by
    simp only [Value.ofDictionary, Value.HasExactNumbers]
    exact allExactMembers_map h.exact m.entries
  takes := fun m ctx hctx => by
    have hin := dictionaryMembers_entries h { ctx with nesting := ctx.nesting - 1 }
      (show depth ≤ ctx.nesting - 1 by omega) m.entries .empty
    rw [Dictionary.foldl_insert_entries] at hin
    simp only [Value.ofDictionary, Value.tree, Decoder.dictionary, enter_succ ctx (by omega)]
    show (do let found ← Decoder.dictionaryMembers d _ _ _; Decoder.atEnd true found) = _
    rw [hin]
    rfl

end Lossless

/-! ## Records -/

namespace Fields

variable {α β : Type} {ctx : Context} {members : List (String × Value)}

/-- The members of a record give `a` when they are read from the given written members. -/
def Gives (f : Fields α) (ctx : Context) (members : List (String × Value)) (a : α) : Prop :=
  f.read ctx (f.names.map fun name => Decoder.memberSlot name 0 (Value.memberTrees members)) = .ok a

theorem gives_seq {f : Fields (α → β)} {x : Fields α} {g : α → β} {a : α}
    (hf : f.Gives ctx members g) (hx : x.Gives ctx members a) :
    (f <*> x).Gives ctx members (g a) := by
  unfold Gives at hf hx ⊢
  have hnames : (f <*> x).names = f.names ++ x.names := rfl
  rw [hnames, List.map_append]
  show combine (f.read ctx (List.take _ _)) (x.read ctx (List.drop _ _)) = _
  simp [hf, hx, combine]

theorem gives_map {x : Fields α} (g : α → β) {a : α} (hx : x.Gives ctx members a) :
    (g <$> x).Gives ctx members (g a) :=
  gives_seq (f := Fields.pure g) rfl hx

theorem memberSlot_of_mem {name : String} {v : Value} (hm : (name, v) ∈ members)
    (hn : (members.map (·.1)).Nodup) (place : Nat) :
    ∃ p, Decoder.memberSlot name place (Value.memberTrees members) = .filled p v.tree := by
  induction members generalizing place with
  | nil => cases hm
  | cons m rest ih =>
      rcases m with ⟨key, w⟩
      rcases List.nodup_cons.1 hn with ⟨hkey, hrest⟩
      rcases List.mem_cons.1 hm with heq | hm
      · rcases Prod.mk.inj heq with ⟨rfl, rfl⟩
        exact ⟨place, by simp [Value.memberTrees, Decoder.memberSlot]⟩
      · have hne : key ≠ name := by
          rintro rfl
          exact hkey (List.mem_map.2 ⟨(key, v), hm, rfl⟩)
        rcases ih hm hrest (place + 1) with ⟨p, hp⟩
        exact ⟨p, by simpa [Value.memberTrees, Decoder.memberSlot, hne] using hp⟩

theorem memberSlot_of_not_mem {name : String} (hm : name ∉ members.map (·.1)) (place : Nat) :
    ∃ p, Decoder.memberSlot name place (Value.memberTrees members) = .missing p := by
  induction members generalizing place with
  | nil => exact ⟨place, rfl⟩
  | cons m rest ih =>
      rcases m with ⟨key, w⟩
      simp only [List.map_cons, List.mem_cons, not_or] at hm
      rcases ih hm.2 (place + 1) with ⟨p, hp⟩
      have hne : ¬ key = name := fun h => hm.1 h.symm
      exact ⟨p, by simpa [Value.memberTrees, Decoder.memberSlot, hne] using hp⟩

theorem gives_single {name : String} {d : Decoder α} {ifMissing ifCut : Option α} {v : Value}
    {a : α} (hn : (members.map (·.1)).Nodup) (hm : (name, v) ∈ members)
    (hv : d ctx v.tree = .ok a) :
    (single name d ifMissing ifCut).Gives ctx members a := by
  rcases memberSlot_of_mem hm hn 0 with ⟨p, hp⟩
  simp [Gives, single, hp, filled, hv]

theorem gives_default {name : String} {d : Decoder α} {a : α} {ifCut : Option α}
    (hm : name ∉ members.map (·.1)) :
    (single name d (some a) ifCut).Gives ctx members a := by
  rcases memberSlot_of_not_mem hm 0 with ⟨p, hp⟩
  simp [Gives, single, hp]

/-- A member that is written only if there is a value. -/
theorem gives_ifAny {name : String} {toJson : α → Value} {d : Decoder α} {depth : Nat} {o : Option α}
    (h : Lossless toJson d depth) (hnull : ∀ a, toJson a ≠ .null) (hctx : depth ≤ ctx.nesting)
    (hn : (members.map (·.1)).Nodup) (hsome : ∀ a, o = some a → (name, toJson a) ∈ members)
    (hnone : o = none → name ∉ members.map (·.1)) :
    (defaulted name d.nullable none).Gives ctx members o := by
  cases o with
  | none => exact gives_default (hnone rfl)
  | some a => exact gives_single hn (hsome a rfl) (h.takes_nullable hnull a ctx hctx)

end Fields

namespace Decoder

theorem memberFault_memberTrees (names : List String) {members : List (String × Value)}
    (hn : (members.map (·.1)).Nodup) (seen : List String)
    (hs : ∀ name ∈ members.map (·.1), name ∉ seen) (place : Nat) :
    memberFault names seen place true (Value.memberTrees members) = none := by
  induction members generalizing seen place with
  | nil => rfl
  | cons m rest ih =>
      rcases m with ⟨key, v⟩
      rcases List.nodup_cons.1 hn with ⟨hkey, hrest⟩
      have hseen : key ∉ seen := hs key (by simp)
      have hlater : ∀ name ∈ rest.map (·.1), name ∉ seen := fun name h => hs name (by simp [h])
      -- The names that are left are neither among those seen before nor the one just seen.
      have hnext : ∀ name ∈ rest.map (·.1), name ∉ key :: seen := by
        intro name h hmem
        rcases List.mem_cons.1 hmem with rfl | hmem
        · exact hkey h
        · exact hlater name h hmem
      simp [Value.memberTrees, memberFault, hseen, Reader.isComplete_tree, ih hrest _ hlater,
        ih hrest _ hnext]

/-- A record is taken back from its written members. -/
theorem record_members {α : Type} {fields : Fields α} {ctx : Context}
    {members : List (String × Value)} {a : α} (hctx : 0 < ctx.nesting)
    (hn : (members.map (·.1)).Nodup)
    (hg : fields.Gives { ctx with nesting := ctx.nesting - 1 } members a) :
    record fields ctx (Value.object members).tree = .ok a := by
  have hfault := memberFault_memberTrees fields.names hn [] (by simp) 0
  simp only [Value.tree, record, Lossless.enter_succ ctx hctx]
  show settle (memberFault fields.names [] 0 true (Value.memberTrees members))
    (fields.read _ _) = _
  rw [hfault, hg]
  rfl

end Decoder

/-- A record is lossless if its members have different names, and are read as what they were written from. -/
theorem Lossless.record {α : Type} {fields : Fields α} {members : α → List (String × Value)} {depth : Nat}
    (hexact : ∀ a, Value.AllExactMembers (members a)) (hn : ∀ a, ((members a).map (·.1)).Nodup)
    (hg : ∀ a ctx, ((members a).map (·.1)).Nodup → depth ≤ ctx.nesting → fields.Gives ctx (members a) a) :
    Lossless (fun a => .object (members a)) (Decoder.record fields) (depth + 1) where
  exact := fun a => by
    rw [Value.HasExactNumbers]
    exact hexact a
  takes := fun a ctx hctx =>
    Decoder.record_members (by omega) (hn a)
      (hg a { ctx with nesting := ctx.nesting - 1 } (hn a) (show depth ≤ ctx.nesting - 1 by omega))

end Json
end CmInventory
