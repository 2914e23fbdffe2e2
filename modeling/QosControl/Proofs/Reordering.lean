import QosControl.Proofs.KeyedLists

/-! # Reordered configurations

A configuration holds lists of entries that have keys. When one of them is permuted, but for the
order of entries of one key, every object that is read of it stays the same. The order of the
local profiles of a shaper, of match rules and of map entries does count.
-/
namespace QosControl
open Json

namespace Json

/-- Whether two nodes have the same fields, but for the listed ones, which are related as listed. -/
structure FieldsBy (rels : List (String × (Value → Value → Prop))) (v w : Value) : Prop where
  listed : ∀ f ∈ rels, Option.Rel f.2 (v.field? f.1) (w.field? f.1)
  rest : ∀ key, key ∉ rels.map (·.1) → v.field? key = w.field? key

/-- Whether two nodes are the same, or lists of which one is a rearrangement of the other. -/
inductive ListsBy {κ : Type} [DecidableEq κ] (key : Value → Option κ) (entry : Value → Value → Prop) :
    Value → Value → Prop
  | same (v : Value) : ListsBy key entry v v
  | list {vs ws : List Value} : Rearranged key entry vs ws → ListsBy key entry (.array vs) (.array ws)

namespace FieldsBy
variable {rels : List (String × (Value → Value → Prop))} {v w : Value}

theorem refl (h : ∀ f ∈ rels, ∀ v, f.2 v v) (v : Value) : FieldsBy rels v v where
  listed f hf := by
    cases v.field? f.1 with
    | none => exact .none
    | some u => exact .some (h f hf u)
  rest _ _ := rfl

/-- Objects of the same keys, of which listed ones have related values, are related. -/
theorem of_forall₂ (hkeys : (rels.map (·.1)).Nodup) (hrefl : ∀ f ∈ rels, ∀ v, f.2 v v)
    {fs gs : List (String × Value)} (h : List.Forall₂ (fun f g => f.1 = g.1 ∧
      (f.2 = g.2 ∨ ∃ r, (f.1, r) ∈ rels ∧ r f.2 g.2)) fs gs) : FieldsBy rels (.object fs) (.object gs) := by
  have hcons : ∀ (f : String × Value) (fs : List (String × Value)) (key : String),
      Value.field? (.object (f :: fs)) key = if f.1 = key then some f.2 else Value.field? (.object fs) key := by
    intro f fs key
    by_cases hkey : f.1 = key <;> simp [Value.field?, hkey]
  induction h with
  | nil => exact .refl hrefl _
  | @cons f g fs gs hfg _ ih =>
    obtain ⟨heq, hvalue⟩ := hfg
    refine ⟨fun x hx => ?_, fun key hkey => ?_⟩
    · rw [hcons, hcons, ← heq]
      split
      next hf =>
        refine .some ?_
        rcases hvalue with hsame | ⟨r, hr, hrel⟩
        · exact hsame ▸ hrefl x hx f.2
        · have hxr : x = (f.1, r) := List.inj_on_of_nodup_map hkeys hx hr hf.symm
          rw [hxr]
          exact hrel
      next => exact ih.listed x hx
    · rw [hcons, hcons, ← heq]
      split
      next hf =>
        rcases hvalue with hsame | ⟨r, hr, _⟩
        · rw [hsame]
        · exact absurd (List.mem_map_of_mem hr) (hf ▸ hkey)
      next => exact ih.rest key hkey

theorem text?_eq (h : FieldsBy rels v w) (key : String) (hkey : key ∉ rels.map (·.1)) : v.text? key = w.text? key := by
  rw [Value.text?, Value.text?, h.rest key hkey]

theorem word?_eq (h : FieldsBy rels v w) (key : String) (hkey : key ∉ rels.map (·.1)) : v.word? key = w.word? key := by
  rw [Value.word?, Value.word?, h.rest key hkey]

theorem requireText_eq (h : FieldsBy rels v w) (key context : String) (hkey : key ∉ rels.map (·.1)) :
    v.requireText key context = w.requireText key context := by
  rw [Value.requireText, Value.requireText, h.text?_eq key hkey]

theorem bandwidth_eq (h : FieldsBy rels v w) (hrels : ∀ key ∈ ["bandwidth", "burst", "burst-msec"],
    key ∉ rels.map (·.1)) (rate : String) : Bandwidth.ofValue v rate = Bandwidth.ofValue w rate := by
  rw [Bandwidth.ofValue, Bandwidth.ofValue, h.text?_eq "bandwidth" (hrels _ (by simp)),
    h.word?_eq "burst" (hrels _ (by simp)), h.word?_eq "burst-msec" (hrels _ (by simp))]

/-- A listed list field holds a rearrangement of the entries. -/
theorem rearranged_items {κ : Type} [DecidableEq κ] {key : String} {id : Value → Option κ} {entry : Value → Value → Prop}
    (h : FieldsBy rels v w) (hlisted : (key, ListsBy id entry) ∈ rels) (hr : ∀ v, entry v v) :
    Rearranged id entry (v.items key) (w.items key) := by
  have hfield : Option.Rel (ListsBy id entry) (v.field? key) (w.field? key) := h.listed _ hlisted
  rw [Value.items, Value.items]
  generalize v.field? key = a at hfield
  generalize w.field? key = b at hfield
  cases hfield with
  | none => exact .refl id hr []
  | some hlist =>
    cases hlist with
    | same u => exact .refl id hr _
    | list h => exact h

/-- The nodes under a listed field are related, where a node that is not there counts as empty. -/
theorem getD_field? {key : String} {r : Value → Value → Prop} (h : FieldsBy rels v w) (hlisted : (key, r) ∈ rels)
    (hr : r .null .null) : r ((v.field? key).getD .null) ((w.field? key).getD .null) := by
  have hfield : Option.Rel r (v.field? key) (w.field? key) := h.listed _ hlisted
  generalize v.field? key = a at hfield
  generalize w.field? key = b at hfield
  cases hfield with
  | none => exact hr
  | some hnode => exact hnode

end FieldsBy

namespace Value
variable {v : Value} {key context : String}

theorem requireText_eq_ok {s : String} : v.requireText key context = .ok s ↔ v.text? key = some s := by
  rw [requireText]
  cases v.text? key <;> simp

theorem requireWord_eq_ok {n : Nat} : v.requireWord key context = .ok n ↔ v.word? key = some n := by
  rw [requireWord]
  cases v.word? key <;> simp

end Value
end Json

namespace Reordered

def numbered : Value → Value → Prop := ListsBy (fun v => v.word? "id") Eq

def named (key : String) (entry : Value → Value → Prop) : Value → Value → Prop := ListsBy (fun v => v.text? key) entry

/-- Lists in which the order of all entries counts. -/
def inOrder (entry : Value → Value → Prop) : Value → Value → Prop := ListsBy (fun _ => some ()) entry

def profile : Value → Value → Prop := FieldsBy [("traffic-class", numbered), ("queue", numbered)]

def shaper : Value → Value → Prop :=
  FieldsBy [("traffic-class", numbered), ("class", numbered), ("profile", inOrder profile)]

def policy : Value → Value → Prop := FieldsBy [("shaper", shaper)]

def qos : Value → Value → Prop :=
  FieldsBy [("name", named "id" policy), ("profile", named "id" profile), ("mark-map", named "id" Eq),
    ("ingress-map", named "id" Eq), ("egress-map", named "id" Eq)]

def action : Value → Value → Prop := FieldsBy [("name", named "id" Eq)]

def resourceGroup : Value → Value → Prop := FieldsBy [(Schema.dscpGroup, named "group-name" Eq)]

def interfaces : Value → Value → Prop :=
  FieldsBy [(Schema.dataplane, named "tagnode" Eq), (Schema.bonding, named "tagnode" Eq)]

/-- Whether a configuration is another one with keyed lists permuted, in which entries of one key
keep their order. -/
def tree : Value → Value → Prop :=
  FieldsBy [(Schema.policy, FieldsBy [(Schema.qos, qos), (Schema.action, action)]),
    (Schema.resources, FieldsBy [(Schema.resourceGroup, resourceGroup)]), (Schema.interfaces, interfaces)]

theorem profile_refl (v : Value) : profile v v := .refl (by simp [numbered, ListsBy.same]) v

theorem shaper_refl (v : Value) : shaper v v := .refl (by simp [numbered, inOrder, ListsBy.same]) v

theorem policy_refl (v : Value) : policy v v := .refl (by simp [shaper_refl]) v

theorem qos_refl (v : Value) : qos v v := .refl (by simp [named, ListsBy.same]) v

theorem action_refl (v : Value) : action v v := .refl (by simp [named, ListsBy.same]) v

theorem resourceGroup_refl (v : Value) : resourceGroup v v := .refl (by simp [named, ListsBy.same]) v

theorem interfaces_refl (v : Value) : interfaces v v := .refl (by simp [named, ListsBy.same]) v

theorem policyNode_refl (v : Value) : FieldsBy [(Schema.qos, qos), (Schema.action, action)] v v :=
  .refl (by simp [qos_refl, action_refl]) v

theorem resources_refl (v : Value) : FieldsBy [(Schema.resourceGroup, resourceGroup)] v v :=
  .refl (by simp [resourceGroup_refl]) v

theorem tree_refl (v : Value) : tree v v := .refl (by simp [policyNode_refl, resources_refl, interfaces_refl]) v

end Reordered
end QosControl
