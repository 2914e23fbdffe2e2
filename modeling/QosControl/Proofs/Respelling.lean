import QosControl.Proofs.NumberTexts
import QosControl.Proofs.Idempotence
import QosControl.Proofs.Rereading

/-! # Numbers given as texts

A number may be given as a number or as the text that is written for it. Every reader of a
configuration is indifferent to that, so a configuration and a respelling of it have the same
outcome: the same fault, or the same snapshot.
-/
namespace QosControl

namespace Json

/-- Whether a value is another one in which some numbers, wherever they are, are given as texts. -/
inductive Respelled : Value → Value → Prop
  | same (v : Value) : Respelled v v
  | number (n : Number) : Respelled (.number n) (.string n.text)
  | array {vs ws : List Value} : List.Forall₂ Respelled vs ws → Respelled (.array vs) (.array ws)
  | object {fs gs : List (String × Value)} : fs.map Prod.fst = gs.map Prod.fst →
    List.Forall₂ Respelled (fs.map Prod.snd) (gs.map Prod.snd) → Respelled (.object fs) (.object gs)

namespace Value

mutual

/-- The value with all its numbers given as texts. -/
def spellOut : Value → Value
  | .number n => .string n.text
  | .array items => .array (spellOutItems items)
  | .object fields => .object (spellOutFields fields)
  | .null => .null
  | .bool b => .bool b
  | .string s => .string s

def spellOutItems : List Value → List Value
  | [] => []
  | v :: vs => v.spellOut :: spellOutItems vs

def spellOutFields : List (String × Value) → List (String × Value)
  | [] => []
  | (k, v) :: fs => (k, v.spellOut) :: spellOutFields fs

end

theorem keys_spellOutFields (fs : List (String × Value)) : (spellOutFields fs).map Prod.fst = fs.map Prod.fst := by
  induction fs with
  | nil => rfl
  | cons f fs ih => rw [spellOutFields, List.map_cons, List.map_cons, ih]

mutual

theorem respelled_spellOut : ∀ v : Value, Respelled v v.spellOut
  | .number n => .number n
  | .array items => .array (respelled_spellOutItems items)
  | .object fields => .object (keys_spellOutFields fields).symm (respelled_spellOutFields fields)
  | .null => .same _
  | .bool _ => .same _
  | .string _ => .same _

theorem respelled_spellOutItems : ∀ vs : List Value, List.Forall₂ Respelled vs (spellOutItems vs)
  | [] => .nil
  | v :: vs => .cons (respelled_spellOut v) (respelled_spellOutItems vs)

theorem respelled_spellOutFields : ∀ fs : List (String × Value),
    List.Forall₂ Respelled (fs.map Prod.snd) ((spellOutFields fs).map Prod.snd)
  | [] => .nil
  | (_, v) :: fs => .cons (respelled_spellOut v) (respelled_spellOutFields fs)

end

end Value

namespace Respelled
variable {v w : Value}

theorem rel_field? (h : Respelled v w) (key : String) : Option.Rel Respelled (v.field? key) (w.field? key) := by
  cases h with
  | same =>
    cases v.field? key with
    | none => exact .none
    | some u => exact .some (.same u)
  | number n => exact .none
  | array h => exact .none
  | @object fs gs hkeys hvalues =>
    induction fs generalizing gs with
    | nil =>
      cases gs with
      | nil => exact .none
      | cons g gs => cases hkeys
    | cons f fs ih =>
      cases gs with
      | nil => cases hkeys
      | cons g gs =>
        obtain ⟨hkey, hkeys⟩ := List.cons.inj hkeys
        obtain ⟨hvalue, hvalues⟩ := List.forall₂_cons.mp hvalues
        by_cases heq : f.1 = key
        · have hother : g.1 = key := by rw [← hkey, heq]
          simp only [Value.field?, List.find?_cons, heq, hother, beq_self_eq_true, Option.map_some]
          exact .some hvalue
        · have hother : g.1 ≠ key := by
            rw [← hkey]
            exact heq
          simpa [Value.field?, heq, hother] using ih hkeys hvalues

theorem getD_field? (h : Respelled v w) (key : String) :
    Respelled ((v.field? key).getD .null) ((w.field? key).getD .null) := by
  have hfield := h.rel_field? key
  generalize v.field? key = a at hfield
  generalize w.field? key = b at hfield
  cases hfield with
  | none => exact .same .null
  | some hnode => exact hnode

theorem forall₂_items (h : Respelled v w) (key : String) : List.Forall₂ Respelled (v.items key) (w.items key) := by
  have hfield := h.rel_field? key
  rw [Value.items, Value.items]
  generalize v.field? key = a at hfield
  generalize w.field? key = b at hfield
  cases hfield with
  | none => exact .nil
  | some hnode =>
    cases hnode with
    | same u => exact List.forall₂_same.mpr fun x _ => .same x
    | array hitems => exact hitems
    | number n => exact .nil
    | object hkeys hvalues => exact .nil

theorem isSome_field?_eq (h : Respelled v w) (key : String) : (v.field? key).isSome = (w.field? key).isSome := by
  have hfield := h.rel_field? key
  generalize v.field? key = a at hfield
  generalize w.field? key = b at hfield
  cases hfield <;> rfl

theorem word?_eq (h : Respelled v w) (key : String) : v.word? key = w.word? key := by
  have hfield := h.rel_field? key
  rw [Value.word?, Value.word?]
  generalize v.field? key = a at hfield
  generalize w.field? key = b at hfield
  cases hfield with
  | none => rfl
  | some hnode =>
    cases hnode with
    | number n =>
      simp only [n.readWord_text]
      cases n <;> rfl
    | _ => rfl

theorem text?_eq (h : Respelled v w) (key : String) : v.text? key = w.text? key := by
  have hfield := h.rel_field? key
  rw [Value.text?, Value.text?]
  generalize v.field? key = a at hfield
  generalize w.field? key = b at hfield
  cases hfield with
  | none => rfl
  | some hnode => cases hnode <;> rfl

theorem flag_eq (h : Respelled v w) (key : String) : v.flag key = w.flag key := by
  have hfield := h.rel_field? key
  rw [Value.flag, Value.flag]
  generalize v.field? key = a at hfield
  generalize w.field? key = b at hfield
  cases hfield with
  | none => rfl
  | some hnode => cases hnode <;> rfl

/-- A text that is not a text of the other value is that of a number. -/
theorem string?_eq_or (h : Respelled v w) (key : String) : v.string? key = w.string? key ∨
    v.string? key = none ∧ ∃ n : Number, w.string? key = some n.text := by
  have hfield := h.rel_field? key
  rw [Value.string?, Value.string?]
  generalize v.field? key = a at hfield
  generalize w.field? key = b at hfield
  cases hfield with
  | none => exact .inl rfl
  | some hnode =>
    cases hnode with
    | number n => exact .inr ⟨rfl, n, rfl⟩
    | _ => exact .inl rfl

theorem bind_string?_eq {β : Type} (h : Respelled v w) (key : String) {f : String → Option β}
    (hf : ∀ n : Number, f n.text = none) : (v.string? key).bind f = (w.string? key).bind f := by
  rcases h.string?_eq_or key with heq | ⟨hnone, n, hsome⟩
  · rw [heq]
  · rw [hnone, hsome, Option.bind_none, Option.bind_some, hf]

theorem string?_eq_some_iff (h : Respelled v w) (key : String) {s : String}
    (hs : s.toList.any Char.isDigit = false) : v.string? key = some s ↔ w.string? key = some s := by
  rcases h.string?_eq_or key with heq | ⟨hnone, n, hsome⟩
  · rw [heq]
  · rw [hnone, hsome, Option.some.injEq]
    constructor
    · intro hnone
      exact nomatch hnone
    · intro htext
      exact absurd htext (Number.text_ne hs n)

theorem requireText_eq (h : Respelled v w) (key context : String) :
    v.requireText key context = w.requireText key context := by
  rw [Value.requireText, Value.requireText, h.text?_eq]

theorem requireWord_eq (h : Respelled v w) (key context : String) :
    v.requireWord key context = w.requireWord key context := by
  rw [Value.requireWord, Value.requireWord, h.word?_eq]

end Respelled

/-- Whether a reader takes a number and the text of it for the same. -/
def Indifferent {β : Type} (f : Value → β) : Prop := ∀ v w, Respelled v w → f v = f w

namespace Indifferent
variable {β : Type} {v w : Value}

theorem bind_field? {f : Value → Option β} (hf : Indifferent f) (h : Respelled v w) (key : String) :
    (v.field? key).bind f = (w.field? key).bind f := by
  have hfield := h.rel_field? key
  generalize v.field? key = a at hfield
  generalize w.field? key = b at hfield
  cases hfield with
  | none => rfl
  | some hnode => exact hf _ _ hnode

theorem map_field? {f : Value → β} (hf : Indifferent f) (h : Respelled v w) (key : String) :
    (v.field? key).map f = (w.field? key).map f := by
  have hfield := h.rel_field? key
  generalize v.field? key = a at hfield
  generalize w.field? key = b at hfield
  cases hfield with
  | none => rfl
  | some hnode => exact congrArg some (hf _ _ hnode)

theorem map_eq {f : Value → β} (hf : Indifferent f) {vs ws : List Value} (h : List.Forall₂ Respelled vs ws) :
    vs.map f = ws.map f := by
  induction h with
  | nil => rfl
  | cons hvw _ ih => rw [List.map_cons, List.map_cons, hf _ _ hvw, ih]

theorem mapM_items {f : Value → Outcome β} (hf : Indifferent f) (h : Respelled v w) (key : String) :
    (v.items key).mapM f = (w.items key).mapM f := by
  have hmap : ∀ vs : List Value, vs.mapM f = (vs.map f).mapM id := by
    intro vs
    rw [List.mapM_map, Function.id_comp]
  rw [hmap, hmap, hf.map_eq (h.forall₂_items key)]

theorem flatMap_items {f : Value → List β} (hf : Indifferent f) (h : Respelled v w) (key : String) :
    (v.items key).flatMap f = (w.items key).flatMap f := by
  rw [List.flatMap_def, List.flatMap_def, hf.map_eq (h.forall₂_items key)]

end Indifferent
end Json

open Json

section Readers
variable {v w : Value}

theorem Bandwidth.indifferent_ofValue (rate : String) : Indifferent (Bandwidth.ofValue · rate) := by
  intro v w h
  simp only [ofValue, h.text?_eq, h.word?_eq]

theorem Marking.indifferent_ofValue? : Indifferent Marking.ofValue? := by
  intro v w h
  simp only [ofValue?, h.text?_eq, h.word?_eq]

theorem ExceedAction.indifferent_ofValue : Indifferent ExceedAction.ofValue := by
  intro v w h
  have haction := h.string?_eq_some_iff "action" (s := "mark") (by decide)
  simp only [ofValue, haction, Marking.indifferent_ofValue?.bind_field? h]

theorem Policer.indifferent_ofValue : Indifferent Policer.ofValue := by
  intro v w h
  have hthen := h.rel_field? "then"
  simp only [ofValue, h.text?_eq, h.word?_eq]
  generalize v.field? "then" = a at hthen
  generalize w.field? "then" = b at hthen
  cases hthen with
  | none => rfl
  | some hnode => simp only [ExceedAction.indifferent_ofValue _ _ hnode]

theorem Wred.indifferent_ofValue? : Indifferent Wred.ofValue? := by
  intro v w h
  simp only [ofValue?, h.word?_eq]

theorem WredGroup.indifferent_ofValue : Indifferent WredGroup.ofValue := by
  intro v w h
  simp only [ofValue, h.requireText_eq, h.word?_eq]

theorem WredMap.indifferent_ofValue (unit : LimitUnit) : Indifferent (WredMap.ofValue unit) := by
  intro v w h
  simp only [ofValue, h.word?_eq, WredGroup.indifferent_ofValue.mapM_items h]

theorem WredMap.indifferent_ofQueue : Indifferent WredMap.ofQueue := by
  intro v w h
  have hcontainers : ∀ u : Value, ofQueue u = (containers.filterMap fun c =>
      (u.field? c.1).map (ofValue c.2)).mapM id := by
    intro u
    rw [ofQueue]
    generalize containers = cs
    induction cs with
    | nil => rfl
    | cons c cs ih =>
      cases hc : u.field? c.1 with
      | none => simpa [hc] using ih
      | some x => simp [hc, ih]
  rw [hcontainers, hcontainers]
  exact congrArg (List.mapM id) (List.filterMap_congr fun c _ => (indifferent_ofValue c.2).map_field? h c.1)

theorem TrafficClass.indifferent_ofValue : Indifferent TrafficClass.ofValue := by
  intro v w h
  simp only [ofValue, h.word?_eq, Bandwidth.indifferent_ofValue _ v w h, Wred.indifferent_ofValue?.bind_field? h]

theorem TrafficClasses.indifferent_entryOfValue : Indifferent TrafficClasses.entryOfValue := by
  intro v w h
  simp only [entryOfValue, h.requireWord_eq, TrafficClass.indifferent_ofValue v w h]

theorem TrafficClasses.ofValues_respelled (h : Respelled v w) (key : String) :
    ofValues (v.items key) = ofValues (w.items key) := by
  simp only [ofValues, indifferent_entryOfValue.mapM_items h]

theorem Queue.indifferent_ofValue : Indifferent Queue.ofValue := by
  intro v w h
  simp only [ofValue, h.requireWord_eq, h.word?_eq, h.flag_eq, WredMap.indifferent_ofQueue v w h]

theorem PipeQueues.ofValues_respelled (h : Respelled v w) (key : String) :
    ofValues (v.items key) = ofValues (w.items key) := by
  simp only [ofValues, Queue.indifferent_ofValue.mapM_items h]

theorem ProfileMap.indifferent_entryOfValue (kind : MapKind) : Indifferent (ProfileMap.entryOfValue kind) := by
  intro v w h
  simp only [entryOfValue, h.requireText_eq, h.requireWord_eq]

theorem ProfileMap.indifferent_ofValue? : Indifferent ProfileMap.ofValue? := by
  intro v w h
  simp only [ofValue?, h.isSome_field?_eq, fun kind => (indifferent_entryOfValue kind).mapM_items h]

theorem Profile.indifferent_ofValue : Indifferent Profile.ofValue := by
  intro v w h
  have hmap := h.rel_field? "map"
  simp only [ofValue, h.requireText_eq, h.word?_eq, TrafficClasses.ofValues_respelled h,
    PipeQueues.ofValues_respelled h, Bandwidth.indifferent_ofValue _ v w h]
  generalize v.field? "map" = a at hmap
  generalize w.field? "map" = b at hmap
  cases hmap with
  | none => rfl
  | some hnode => simp only [ProfileMap.indifferent_ofValue? _ _ hnode]

theorem Endpoint.ofField_respelled (h : Respelled v w) (key : String) : ofField v key = ofField w key := by
  have htext : ∀ leaf, Indifferent (·.text? leaf) := fun leaf x y hxy => hxy.text?_eq leaf
  rw [ofField, ofField, (htext "address").bind_field? h, (htext "port").bind_field? h]

theorem Rule.indifferent_ofValue : Indifferent Rule.ofValue := by
  intro v w h
  have haction := h.string?_eq_some_iff "action" (s := "drop") (by decide)
  simp only [ofValue, h.requireText_eq, h.text?_eq, h.word?_eq, h.flag_eq, haction, Endpoint.ofField_respelled h,
    Marking.indifferent_ofValue?.bind_field? h, Policer.indifferent_ofValue.map_field? h]

theorem RuleClass.indifferent_ofValue : Indifferent RuleClass.ofValue := by
  intro v w h
  simp only [ofValue, h.requireWord_eq, h.text?_eq, Rule.indifferent_ofValue.mapM_items h]

theorem Shaper.indifferent_ofValue : Indifferent Shaper.ofValue := by
  intro v w h
  simp only [ofValue, h.text?_eq, h.word?_eq, Profile.indifferent_ofValue.mapM_items h,
    RuleClass.indifferent_ofValue.mapM_items h, TrafficClasses.ofValues_respelled h,
    Bandwidth.indifferent_ofValue _ v w h]

theorem Policy.indifferent_ofValue : Indifferent Policy.ofValue := by
  intro v w h
  simp only [ofValue, h.requireText_eq, Shaper.indifferent_ofValue _ _ (h.getD_field? "shaper")]

theorem ActionGroup.indifferent_ofValue : Indifferent ActionGroup.ofValue := by
  intro v w h
  simp only [ofValue, h.requireText_eq, Marking.indifferent_ofValue?.bind_field? h,
    Policer.indifferent_ofValue.map_field? h]

theorem Colour.ofText?_text (n : Number) : Colour.ofText? n.text = none := by
  refine List.find?_eq_none.mpr fun c _ => ?_
  have hkeyword : c.text.toList.any Char.isDigit = false := by cases c <;> decide
  simpa using (Number.text_ne hkeyword n).symm

variable (groups : DscpGroups)

theorem IngressMap.indifferent_target : Indifferent IngressMap.target := by
  intro v w h
  simp only [target, h.requireWord_eq, h.bind_string?_eq "drop-precedence" Colour.ofText?_text]

theorem IngressMap.indifferent_pcpEntry : Indifferent IngressMap.pcpEntry := by
  intro v w h
  simp only [pcpEntry, h.requireWord_eq, indifferent_target v w h]

theorem IngressMap.indifferent_groupEntry : Indifferent (IngressMap.groupEntry groups) := by
  intro v w h
  simp only [groupEntry, h.requireText_eq, indifferent_target v w h]

theorem IngressMap.indifferent_ofValue : Indifferent (IngressMap.ofValue groups) := by
  intro v w h
  simp only [ofValue, h.requireText_eq, h.flag_eq, indifferent_pcpEntry.mapM_items h,
    (indifferent_groupEntry groups).mapM_items h]

theorem EgressMap.indifferent_designationEntry : Indifferent EgressMap.designationEntry := by
  intro v w h
  simp only [designationEntry, h.requireWord_eq, h.requireText_eq]

theorem EgressMap.indifferent_groupEntry : Indifferent (EgressMap.groupEntry groups) := by
  intro v w h
  simp only [groupEntry, h.requireText_eq]

theorem EgressMap.indifferent_ofValue : Indifferent (EgressMap.ofValue groups) := by
  intro v w h
  simp only [ofValue, h.requireText_eq, indifferent_designationEntry.mapM_items h,
    (indifferent_groupEntry groups).mapM_items h]

theorem MarkMap.indifferent_groupEntry : Indifferent (MarkMap.groupEntry groups) := by
  intro v w h
  simp only [groupEntry, h.requireText_eq, h.requireWord_eq]

theorem MarkMap.indifferent_colourEntry (designation : Nat) : Indifferent (MarkMap.colourEntry designation) := by
  intro v w h
  simp only [colourEntry, h.requireText_eq, h.requireWord_eq]

theorem MarkMap.indifferent_designationEntries : Indifferent MarkMap.designationEntries := by
  intro v w h
  simp only [designationEntries, h.requireWord_eq, h.word?_eq,
    fun designation => (indifferent_colourEntry designation).mapM_items h]

theorem MarkMap.indifferent_ofValue : Indifferent (MarkMap.ofValue groups) := by
  intro v w h
  simp only [ofValue, h.requireText_eq, (indifferent_groupEntry groups).mapM_items h,
    indifferent_designationEntries.mapM_items h]

theorem indifferent_memberCodePoints : Indifferent memberCodePoints := by
  intro v w h
  cases h <;> rfl

theorem DscpGroups.ofValues_respelled {vs ws : List Value} (h : List.Forall₂ Respelled vs ws) :
    ofValues vs = ofValues ws := by
  have hentry : Indifferent fun v : Value => (v.text? "group-name").map fun name =>
      (name, sortedKeys ((v.items "dscp").flatMap memberCodePoints)) := by
    intro v w h
    simp only [h.text?_eq, indifferent_memberCodePoints.flatMap_items h]
  have hmap : ∀ us : List Value, (us.filterMap fun v => (v.text? "group-name").map fun name =>
      (name, sortedKeys ((v.items "dscp").flatMap memberCodePoints))) = (us.map fun v =>
        (v.text? "group-name").map fun name =>
          (name, sortedKeys ((v.items "dscp").flatMap memberCodePoints))).filterMap id := by
    intro us
    rw [List.filterMap_map, Function.id_comp]
  rw [ofValues, ofValues, hmap, hmap, hentry.map_eq h]

theorem Platform.indifferent_ofValue : Indifferent Platform.ofValue := by
  intro v w h
  have hword : ∀ leaf, Indifferent (·.word? leaf) := fun leaf x y hxy => hxy.word?_eq leaf
  simp only [ofValue, (hword "buffer-threshold").bind_field? h, (hword "local-priority-designation").bind_field? h]

theorem Attachment.indifferent_ofValue (vlan : Nat) : Indifferent (Attachment.ofValue vlan) := by
  intro v w h
  have htext : ∀ leaf, Indifferent (·.text? leaf) := fun leaf x y hxy => hxy.text?_eq leaf
  simp only [ofValue, fun leaf => (htext leaf).bind_field? h]

theorem Attachment.indifferent_ofVlan? : Indifferent Attachment.ofVlan? := by
  intro v w h
  simp only [ofVlan?, h.requireWord_eq, fun vlan => indifferent_ofValue vlan v w h]

theorem Interface.indifferent_ofEntry? (name : String) (kind : InterfaceKind) :
    Indifferent fun v => Interface.ofEntry? name kind v := by
  intro v w h
  unfold Interface.ofEntry?
  simp only [Attachment.indifferent_ofValue 0 v w h, Attachment.indifferent_ofVlan?.mapM_items h]

theorem Interface.indifferent_ofValue? (kind : InterfaceKind) : Indifferent (Interface.ofValue? kind) := by
  intro v w h
  simp only [ofValue?, h.requireText_eq, fun name => indifferent_ofEntry? name kind v w h]

theorem Interface.indifferent_memberPort? (port : String) :
    Indifferent fun lag => Interface.memberPort? port (some lag) := by
  intro v w h
  simp only [memberPort?, h.requireText_eq, fun name kind => indifferent_ofEntry? name kind v w h]

theorem Roster.indifferent_ofLag (membership : Option Membership) : Indifferent (Roster.ofLag membership) := by
  intro v w h
  cases membership with
  | none => simp only [ofLag, Interface.indifferent_ofValue? .bonding v w h]
  | some m => simp only [ofLag, h.requireText_eq, fun port => Interface.indifferent_memberPort? port v w h]

theorem Roster.indifferent_ofTree (membership : Option Membership) : Indifferent (Roster.ofTree · membership) := by
  intro v w h
  have hnode := h.getD_field? Schema.interfaces
  simp only [ofTree, (indifferent_ofLag membership).mapM_items hnode,
    (Interface.indifferent_ofValue? .dataplane).mapM_items hnode]

end Readers

namespace Catalogue

theorem indifferent_dscpGroups : Indifferent dscpGroups := by
  intro v w h
  have hnode := (h.getD_field? Schema.resources).getD_field? Schema.resourceGroup
  rw [dscpGroups_eq, dscpGroups_eq]
  exact DscpGroups.ofValues_respelled (hnode.forall₂_items Schema.dscpGroup)

theorem policyNode_respelled {v w : Value} (h : Respelled v w) (key : String) :
    Respelled (policyNode v key) (policyNode w key) := by
  rw [policyNode_eq, policyNode_eq]
  exact (h.getD_field? Schema.policy).getD_field? key

theorem readNamed_respelled {α β : Type} {name : α → String} {read : Value → Outcome α} (hread : Indifferent read)
    {v w : Value} (h : Respelled v w) (key : String) :
    readNamed (β := β) name read (v.items key) = readNamed name read (w.items key) := by
  simp only [readNamed, hread.mapM_items h]

theorem indifferent_ofTree : Indifferent Catalogue.ofTree := by
  intro v w h
  have hqos := policyNode_respelled h Schema.qos
  have haction := policyNode_respelled h Schema.action
  rw [policyNode, policyNode] at hqos haction
  simp only [ofTree, indifferent_dscpGroups v w h, readNamed_respelled Policy.indifferent_ofValue hqos,
    Profile.indifferent_ofValue.mapM_items hqos, readNamed_respelled (MarkMap.indifferent_ofValue _) hqos,
    readNamed_respelled (IngressMap.indifferent_ofValue _) hqos,
    readNamed_respelled (EgressMap.indifferent_ofValue _) hqos,
    readNamed_respelled ActionGroup.indifferent_ofValue haction, Platform.indifferent_ofValue _ _ hqos]

end Catalogue

namespace Snapshot

theorem indifferent_ofTree (membership : Option Membership) : Indifferent (Snapshot.ofTree · membership) := by
  intro v w h
  simp only [ofTree, Catalogue.indifferent_ofTree v w h, Roster.indifferent_ofTree membership v w h]

end Snapshot

namespace Plan
open Snapshot

/-- A configuration and one in which numbers are given as texts, at any places, have the same outcome,
and there is nothing to do between them. -/
theorem ofTree_eq_and_commands_eq_nil_of_respelled {t u : Value} (h : Respelled t u) (membership : Option Membership) :
    ofTree t membership = ofTree u membership ∧ ∀ old new, ofTree t membership = .ok old →
      ofTree u membership = .ok new → old = new ∧ ∀ platform, (between old new platform).commands = [] := by
  have heq : ofTree t membership = ofTree u membership := indifferent_ofTree membership t u h
  refine ⟨heq, ?_⟩
  intro old new hold hnew
  rw [heq, hnew] at hold
  cases hold
  exact ⟨rfl, commands_self (Read.tree hnew).linked⟩

/-- A port with a VLAN, both with a policy whose shaper has an integer of each sign and a double. -/
def numbered : Value := Scenario.tree { Scenario.empty with
  policies := [.ofFields [("id", .string "p1"), ("shaper", .ofFields [
    ("bandwidth", .number (.natural 1000000)), ("burst", .number (.negative 0)),
    ("period", .number (.double ⟨0x4004000000000000⟩)), ("default", .string "shared"),
    ("class", .array [.ofFields [("id", Scenario.word 1), ("profile", .number (.natural 7))]])])]]
  profiles := [Scenario.profile "shared" "1Gbit", Scenario.profile "7" "1Gbit"]
  ports := [Scenario.portWithVlans "dp0s1" (some "p1") [(10, "p1")]] }

/-- All numbers are given as texts. -/
theorem ofTree_eq_and_commands_eq_nil_of_respelled_numbered :
    ∃ old new, ofTree numbered none = .ok old ∧ ofTree numbered.spellOut none = .ok new ∧ old.ports ≠ [] ∧
      old = new ∧ (between old new .packets).commands = [] := by
  have hread : (ofTree numbered none).toOption.any (fun s => !s.ports.isEmpty) = true := by decide +kernel
  obtain ⟨old, hold, hports⟩ := (Option.any_eq_true _ _).mp hread
  have hold := Outcome.eq_ok_of_toOption hold
  obtain ⟨heq, hsame⟩ := ofTree_eq_and_commands_eq_nil_of_respelled numbered.respelled_spellOut none
  have hnew : ofTree numbered.spellOut none = .ok old := heq.symm.trans hold
  obtain ⟨_, hnil⟩ := hsame old old hold hnew
  exact ⟨old, old, hold, hnew, by simpa using hports, rfl, hnil .packets⟩

end Plan
end QosControl
