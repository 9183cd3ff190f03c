import Clearance.Proofs.Json.Canonical
import Clearance.Wire.Names
import Mathlib.Tactic.Common

/-!
# Clearance — Proofs — Wire — Reading what was written

* `Decoder.Restores`: a decoder reads a value off a tree, in whatever order the objects of the tree
  hold their fields.  One lemma for each decoder that the records are made of.
* `Decoder.Fills`: the fields of an object stand for the slots of a record, but for slots at the end
  that may be left out.
* `Decoder.Fills.record`: such an object is read, and each field of it is found under its name.
* `Decoder.Yields`: what holds of whatever a decoder reads.  A value and a context that were read are
  canonical.
-/

namespace Clearance

namespace Decoder

variable {α : Type}

@[simp] theorem ok_bind {β : Type} (a : α) (f : α → Except DecodeError β) :
    (Except.ok a >>= f) = f a := rfl

/-- `decode` reads `a` off the tree `j`, in whatever order its objects hold their fields. -/
def Restores (decode : Decoder α) (j : Json) (a : α) : Prop :=
  ∀ arrange, (∀ fs : List (String × Json), (arrange fs).Perm fs) →
    decode .value (.ofJson (j.arranged arrange)) = .ok a

/-- A tree is read as `a`: as it is, and with the fields of its objects in any other order. -/
structure RoundTrips (decode : Decoder α) (j : Json) (a : α) : Prop where
  plain : decode.ofJson j = .ok a
  arranged : ∀ arrange, (∀ fs : List (String × Json), (arrange fs).Perm fs) →
    decode.ofJson (j.arranged arrange) = .ok a

theorem Restores.roundTrips {decode : Decoder α} {j : Json} {a : α} (h : Restores decode j a) :
    RoundTrips decode j a := by
  refine ⟨?_, h⟩
  have h := h id fun fs => .refl fs
  rwa [Json.arranged_id] at h

/-! ### Parts -/

theorem restores_string (s : String) : Restores string (.str s) s := fun _ _ => rfl

theorem restores_boolean (b : Bool) : Restores boolean (.bool b) b := fun _ _ => rfl

theorem restores_text? (s : Option String) : Restores (optional string) (.ofText? s) s := by
  cases s <;> exact fun _ _ => rfl

theorem restores_value {j : Json} (h : j.Canonical) : Restores value j j := by
  intro arrange harrange
  rw [value, h.toJson?_arranged harrange (Nat.le_refl _)]

theorem restores_oneOf {ofText? : String → Option α} {a : α} {name : String} (names : List String)
    (h : ofText? name = some a) : Restores (oneOf ofText? names) (.str name) a := by
  intro arrange harrange
  change named ofText? names name = .ok a
  rw [named, h]

theorem mapM_map_ok {β γ : Type} {read : β → Except DecodeError γ} {write : γ → β} {l : List γ}
    (h : ∀ a ∈ l, read (write a) = .ok a) : (l.map write).mapM read = .ok l := by
  induction l with
  | nil => rfl
  | cons a rest ih =>
      rw [List.map_cons, List.mapM_cons, h a List.mem_cons_self,
        ih fun b hb => h b (List.mem_cons_of_mem a hb)]
      rfl

theorem restores_list {decode : Decoder α} {toJson : α → Json} {l : List α}
    (h : ∀ a ∈ l, Restores decode (toJson a) a) :
    Restores (list decode) (.arr (l.map toJson)) l := by
  intro arrange harrange
  have hitems : ((l.map toJson).map fun j => Document.ofJson (j.arranged arrange)).mapM
      (decode .value) = .ok l := by
    rw [List.map_map]
    exact mapM_map_ok fun a ha => h a ha arrange harrange
  rw [Json.arranged, Json.arrangedItems_eq, Document.ofJson, Document.ofItems_eq,
    List.map_map]
  simp only [list, inside, ok_bind]
  exact congrArg (· >>= Except.ok) hitems

end Decoder

open Decoder

/-- The values of a context are canonical. -/
def Context.Canonical (c : Context) : Prop := ∀ e ∈ c.entries, e.2.Canonical

theorem Context.canonical_empty : Canonical {} := fun _ he => nomatch he

theorem Context.restores {c : Context} (h : c.Canonical) : Restores context c.toJson c := by
  intro arrange harrange
  obtain ⟨gs, hgs, hobj⟩ := Json.arranged_obj harrange c.entries
  have hentries : (gs.map fun e => (e.1, Document.ofJson (e.2.arranged arrange))).mapM
      (fun f => do
        let v ← value .value f.2
        pure (f.1, v)) = Except.ok (ε := DecodeError) gs := by
    refine mapM_map_ok fun e he => ?_
    rw [restores_value (h e (hgs.mem_iff.mp he)) arrange harrange]
    rfl
  rw [toJson, hobj, Document.ofJson, Document.ofFields_arranged]
  simp only [context, inside, ok_bind, hentries, ofFields_of_perm hgs]

namespace Decoder

/-! ### Records -/

/-- `fields` are there for the first of the slots, and the others may be left out. -/
inductive Fills : List Slot → List (String × Json) → Prop
  | rest {slots : List Slot} (h : ∀ s ∈ slots, s.presence ≠ .required) : Fills slots []
  | cons {α : Type} {name : String} {presence : Presence} {decode : Decoder α} {j : Json} {a : α}
    {slots : List Slot} {fields : List (String × Json)} (h : Restores decode j a)
    (hrest : Fills slots fields) : Fills (slot name presence decode :: slots) ((name, j) :: fields)

variable {slots : List Slot} {fields : List (String × Json)}
variable {arrange : List (String × Json) → List (String × Json)}

namespace Fills

theorem keys_prefix (h : Fills slots fields) : fields.map Prod.fst <+: slots.map Slot.name := by
  induction h with
  | rest => exact List.nil_prefix
  | cons _ _ ih => exact (List.prefix_cons_inj _).mpr ih

/-- Each field has a slot that its value fits. -/
theorem exists_slot (h : Fills slots fields) (harrange : ∀ fs, (arrange fs).Perm fs)
    {f : String × Json} (hf : f ∈ fields) :
    ∃ s ∈ slots, s.name = f.1 ∧ s.check .value (.ofJson (f.2.arranged arrange)) = .ok () := by
  induction h with
  | rest => cases hf
  | cons h _ ih =>
      rcases List.mem_cons.mp hf with rfl | hf
      · exact ⟨_, List.mem_cons_self, rfl, congrArg (Except.map fun _ => ()) (h arrange harrange)⟩
      · obtain ⟨s, hs, hfit⟩ := ih hf
        exact ⟨s, List.mem_cons_of_mem _ hs, hfit⟩

theorem isSome_lookup (h : Fills slots fields) {s : Slot} (hs : s ∈ slots)
    (hpresence : s.presence = .required) : (fields.lookup s.name).isSome := by
  induction h with
  | rest h => exact absurd hpresence (h s hs)
  | cons _ _ ih =>
      rw [lookup_field]
      split
      · rfl
      · rename_i hne
        refine ih ((List.mem_cons.mp hs).resolve_left ?_)
        rintro rfl
        exact hne rfl

end Fills

/-- Fields of different names that each fit the slot of their name pass the check. -/
theorem checkFields_ok {src : Source} {docs : List (String × Document)} {seen : List String}
    (hnodup : (docs.map Prod.fst).Nodup) (hseen : ∀ f ∈ docs, f.1 ∉ seen)
    (h : ∀ f ∈ docs, ∃ s, slots.find? (·.name == f.1) = some s ∧ s.check src f.2 = .ok ()) :
    checkFields slots src seen docs = .ok () := by
  induction docs generalizing seen with
  | nil => rfl
  | cons f rest ih =>
      obtain ⟨k, v⟩ := f
      rw [List.map_cons, List.nodup_cons] at hnodup
      rw [List.forall_mem_cons] at hseen h
      obtain ⟨⟨s, hs, hcheck⟩, hfit⟩ := h
      have hk : ¬seen.contains k = true := fun hk => hseen.1 (List.contains_iff_mem.mp hk)
      rw [checkFields, hs]
      simp only [if_neg hk, hcheck]
      refine ih hnodup.2 (fun f hf hmem => ?_) hfit
      rcases List.mem_cons.mp hmem with hk | hmem
      · exact hnodup.1 (List.mem_map.mpr ⟨f, hf, hk⟩)
      · exact hseen.2 f hf hmem

theorem find?_name (hnames : (slots.map Slot.name).Nodup) {s : Slot} (hs : s ∈ slots) :
    slots.find? (·.name == s.name) = some s := by
  cases hfind : slots.find? (·.name == s.name) with
  | none => exact absurd (beq_self_eq_true s.name) (List.find?_eq_none.mp hfind s hs)
  | some t =>
      have hname : t.name = s.name := eq_of_beq (List.find?_some hfind :)
      rw [List.inj_on_of_nodup_map hnames (List.mem_of_find?_eq_some hfind) hs hname]

/-- The fields that are there pass the check of the slots in any order, and each is found under its
name. -/
theorem Fills.checked (h : Fills slots fields) (hnames : (slots.map Slot.name).Nodup)
    (harrange : ∀ fs, (arrange fs).Perm fs) :
    ∃ docs, Document.ofJson ((Json.obj fields).arranged arrange) = .map docs .closed ∧
      checkFields slots .value [] docs = .ok () ∧
      ∀ key, docs.lookup key =
        (fields.lookup key).map fun j => Document.ofJson (j.arranged arrange) := by
  obtain ⟨gs, hgs, hobj⟩ := Json.arranged_obj harrange fields
  have hfields : (fields.map Prod.fst).Nodup := hnames.sublist h.keys_prefix.sublist
  refine ⟨gs.map fun f => (f.1, Document.ofJson (f.2.arranged arrange)), ?_,
    checkFields_ok ?_ (fun _ _ => List.not_mem_nil) fun f hf => ?_, fun key => ?_⟩
  · rw [hobj, Document.ofJson, Document.ofFields_arranged]
  · rw [List.map_map]
    exact (hgs.map Prod.fst).nodup_iff.mpr hfields
  · obtain ⟨g, hg, rfl⟩ := List.mem_map.mp hf
    obtain ⟨s, hs, hname, hcheck⟩ := h.exists_slot harrange (hgs.mem_iff.mp hg)
    exact ⟨s, hname ▸ find?_name hnames hs, hcheck⟩
  · exact (lookup_map_snd (fun j => Document.ofJson (j.arranged arrange)) gs key).trans <|
      congrArg _ (lookup_perm hgs hfields key)

/-- **An object with the fields of a record is read**, in whatever order they stand, and each field
is found under its name. -/
theorem Fills.record (h : Fills slots fields) (hnames : (slots.map Slot.name).Nodup)
    (harrange : ∀ fs, (arrange fs).Perm fs) (name : String) :
    ∃ f, record name slots .value (.ofJson ((Json.obj fields).arranged arrange)) = .ok f ∧
      f.source = .value ∧
      ∀ key, f.fields.lookup key =
        (fields.lookup key).map fun j => Document.ofJson (j.arranged arrange) := by
  obtain ⟨docs, hdocs, hcheck, hlookup⟩ := h.checked hnames harrange
  refine ⟨⟨.value, docs⟩, ?_, rfl, hlookup⟩
  have hmissing : slots.find?
      (fun s => s.presence == .required && !docs.any (·.1 == s.name)) = none := by
    refine List.find?_eq_none.mpr fun s hs hno => ?_
    obtain ⟨hpresence, hno⟩ := Bool.and_eq_true_iff.mp hno
    have hsome : (docs.lookup s.name).isSome := by
      rw [hlookup, Option.isSome_map]
      exact h.isSome_lookup hs (eq_of_beq hpresence)
    obtain ⟨d, hd, hname⟩ := List.lookup_isSome_iff.mp hsome
    rw [Bool.not_eq_true', List.any_eq_false] at hno
    exact hno d hd (BEq.symm hname)
  rw [hdocs]
  simp only [Decoder.record, inside, ok_bind, hcheck, hmissing]
  rfl

/-! ### What is read -/

theorem bind_eq_ok {α β : Type} {x : Except DecodeError α} {f : α → Except DecodeError β} {b : β} :
    (x >>= f) = .ok b ↔ ∃ a, x = .ok a ∧ f a = .ok b := by
  cases x with
  | error e => exact ⟨nofun, nofun⟩
  | ok a => simp

theorem exists_of_mapM_ok {β γ : Type} {read : β → Except DecodeError γ} {l : List β} {ys : List γ}
    (h : l.mapM read = .ok ys) {y : γ} (hy : y ∈ ys) : ∃ x ∈ l, read x = .ok y := by
  induction l generalizing ys with
  | nil =>
      cases h
      cases hy
  | cons x rest ih =>
      simp only [List.mapM_cons, bind_eq_ok] at h
      obtain ⟨z, hz, zs, hzs, h⟩ := h
      cases h
      rcases List.mem_cons.mp hy with rfl | hy
      · exact ⟨x, List.mem_cons_self, hz⟩
      · obtain ⟨w, hw, hread⟩ := ih hzs hy
        exact ⟨w, List.mem_cons_of_mem x hw, hread⟩

/-- Whatever the decoder reads, from a value or off a text, has the property `P`. -/
def Yields {α : Type} (decode : Decoder α) (P : α → Prop) : Prop :=
  ∀ src d a, decode src d = .ok a → P a

theorem yields_value : Yields value Json.Canonical := by
  intro src d j h
  simp only [value] at h
  split at h
  · cases h
    exact Document.canonical_of_toJson? d ‹_›
  · cases h

theorem yields_context : Yields context Context.Canonical := by
  intro src d c h
  cases d with
  | map fields ending =>
      simp only [context, bind_eq_ok] at h
      obtain ⟨inner, -, entries, hentries, h⟩ := h
      cases ending with
      | cut => cases h
      | closed =>
          cases h
          intro e he
          rw [Context.entries_ofFields] at he
          obtain ⟨f, -, hf⟩ := exists_of_mapM_ok hentries (mem_of_mem_sortFields he)
          obtain ⟨v, hv, hf⟩ := bind_eq_ok.mp hf
          cases hf
          exact yields_value _ _ v hv
  | null | bool | int | double | str | seq | valueless | broken => cases h

namespace Yields

variable {α : Type} {decode : Decoder α} {P : α → Prop} {f : Fields} {name : String} {a : α}

theorem list (h : Yields decode P) : Yields (list decode) fun l => ∀ a ∈ l, P a := by
  intro src d l hl
  cases d with
  | seq items ending =>
      simp only [Decoder.list, bind_eq_ok] at hl
      obtain ⟨inner, -, values, hvalues, hl⟩ := hl
      cases ending with
      | cut => cases hl
      | closed =>
          cases hl
          intro a ha
          obtain ⟨x, -, hx⟩ := exists_of_mapM_ok hvalues ha
          exact h inner x a hx
  | null | bool | int | double | str | map | valueless | broken => cases hl

/-- What is read under the name of a field that has to be there. -/
theorem of_get (h : Yields decode P) (hget : f.get name decode = .ok a) : P a := by
  rw [Fields.get] at hget
  split at hget
  · exact h _ _ a hget
  · cases hget

/-- What is read under the name of a field, or stands for an absent one. -/
theorem of_getD (h : Yields decode P) {default : α} (hdefault : P default)
    (hget : f.getD name decode default = .ok a) : P a := by
  rw [Fields.getD] at hget
  split at hget
  · exact h _ _ a hget
  · cases hget
    exact hdefault

/-- What was read is read back, if what has the property `P` is. -/
theorem roundTrips {toJson : α → Json} (h : Yields decode P)
    (hP : ∀ a, P a → Restores decode (toJson a) a) :
    Yields decode fun a => RoundTrips decode (toJson a) a :=
  fun src d a ha => (hP a (h src d a ha)).roundTrips

end Yields

end Decoder

end Clearance
