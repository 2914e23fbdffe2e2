import QosControl.Proofs.Reordering

/-! # Reading a reordered configuration

What can be read of a configuration can be read of a reordering of it. The objects are the same and
so are the interfaces under their names; only the order of interfaces and that of global profiles
may differ.
-/
namespace QosControl
open Json

/-- An outcome of reading a node does not depend on what a relation leaves open. -/
theorem Outcome.congr_eq {β : Type} {f : Value → Outcome β} (v w : Value) (b : β) (h : v = w)
    (hb : f v = .ok b) : f w = .ok b := h ▸ hb

section Nodes
variable {rels : List (String × (Value → Value → Prop))} {key : String} {v w : Value}

theorem TrafficClasses.ofValues_reordered (h : FieldsBy rels v w) (hlisted : (key, Reordered.numbered) ∈ rels)
    {cs : TrafficClasses} (hcs : ofValues (v.items key) = .ok cs) : ofValues (w.items key) = .ok cs := by
  obtain ⟨es, hes, hcs⟩ := Outcome.bind_eq_ok.mp hcs
  cases hcs
  have hid : ∀ v e, entryOfValue v = .ok e → v.word? "id" = some e.1 := by
    intro v e he
    obtain ⟨id, hid, he⟩ := Outcome.bind_eq_ok.mp he
    split at he
    · cases he
      exact Value.requireWord_eq_ok.mp hid
    · cases he
  obtain ⟨fs, hfs, hsame⟩ := (h.rearranged_items hlisted Eq.refl).exists_mapM Outcome.congr_eq Prod.fst hid hes
  refine Outcome.bind_eq_ok.mpr ⟨fs, hfs, ?_⟩
  rw [ofEntries, ofEntries, Table.ofList_congr hsame]
  rfl

theorem PipeQueues.ofValues_reordered (h : FieldsBy rels v w) (hlisted : (key, Reordered.numbered) ∈ rels)
    {qs : PipeQueues} (hqs : ofValues (v.items key) = .ok qs) : ofValues (w.items key) = .ok qs := by
  obtain ⟨xs, hxs, hqs⟩ := Outcome.bind_eq_ok.mp hqs
  cases hqs
  have hid : ∀ v q, Queue.ofValue v = .ok q → v.word? "id" = some q.id := by
    intro v q hq
    obtain ⟨id, hid, hq⟩ := Outcome.bind_eq_ok.mp hq
    obtain ⟨_, _, hq⟩ := Outcome.bind_eq_ok.mp hq
    obtain ⟨_, _, hq⟩ := Outcome.bind_eq_ok.mp hq
    cases hq
    exact Value.requireWord_eq_ok.mp hid
  obtain ⟨ys, hys, hsame⟩ := (h.rearranged_items hlisted Eq.refl).exists_mapM Outcome.congr_eq Queue.id hid hxs
  refine Outcome.bind_eq_ok.mpr ⟨ys, hys, ?_⟩
  rw [Table.ofNamed_congr hsame]
  rfl

theorem Profile.ofValue_reordered (v w : Value) (p : Profile) (h : Reordered.profile v w)
    (hp : ofValue v = .ok p) : ofValue w = .ok p := by
  obtain ⟨name, hname, hp⟩ := Outcome.bind_eq_ok.mp hp
  obtain ⟨classes, hclasses, hp⟩ := Outcome.bind_eq_ok.mp hp
  obtain ⟨queues, hqueues, hp⟩ := Outcome.bind_eq_ok.mp hp
  rw [h.requireText_eq "id" _ (by simp)] at hname
  have hclasses := TrafficClasses.ofValues_reordered h (by simp) hclasses
  have hqueues := PipeQueues.ofValues_reordered h (by simp) hqueues
  rw [h.rest "map" (by simp), h.word?_eq "period" (by simp), h.bandwidth_eq (by simp)] at hp
  exact Outcome.bind_eq_ok.mpr ⟨name, hname, Outcome.bind_eq_ok.mpr ⟨classes, hclasses,
    Outcome.bind_eq_ok.mpr ⟨queues, hqueues, hp⟩⟩⟩

theorem Shaper.ofValue_reordered (v w : Value) (s : Shaper) (h : Reordered.shaper v w)
    (hs : ofValue v = .ok s) : ofValue w = .ok s := by
  obtain ⟨profiles, hprofiles, hs⟩ := Outcome.bind_eq_ok.mp hs
  obtain ⟨classes, hclasses, hs⟩ := Outcome.bind_eq_ok.mp hs
  obtain ⟨trafficClasses, htraffic, hs⟩ := Outcome.bind_eq_ok.mp hs
  have hid : ∀ v c, RuleClass.ofValue v = .ok c → v.word? "id" = some c.id := by
    intro v c hc
    obtain ⟨id, hid, hc⟩ := Outcome.bind_eq_ok.mp hc
    obtain ⟨_, _, hc⟩ := Outcome.bind_eq_ok.mp hc
    cases hc
    exact Value.requireWord_eq_ok.mp hid
  have hprofiles := (h.rearranged_items (by simp [Reordered.inOrder]) Reordered.profile_refl).mapM_inOrder
    Profile.ofValue_reordered hprofiles
  obtain ⟨classes', hclasses', hsame⟩ := (h.rearranged_items (by simp [Reordered.numbered]) Eq.refl).exists_mapM
    Outcome.congr_eq RuleClass.id hid hclasses
  have htraffic := TrafficClasses.ofValues_reordered h (by simp) htraffic
  -- the classes are sorted, so only the list before the sort differs
  rw [mergeSort_congr hsame, h.bandwidth_eq (by simp), h.word?_eq "period" (by simp),
    h.word?_eq "frame-overhead" (by simp), h.text?_eq "default" (by simp), h.text?_eq "mark-map" (by simp)] at hs
  exact Outcome.bind_eq_ok.mpr ⟨profiles, hprofiles, Outcome.bind_eq_ok.mpr ⟨classes', hclasses',
    Outcome.bind_eq_ok.mpr ⟨trafficClasses, htraffic, hs⟩⟩⟩

theorem Policy.ofValue_reordered (v w : Value) (p : Policy) (h : Reordered.policy v w)
    (hp : ofValue v = .ok p) : ofValue w = .ok p := by
  obtain ⟨name, hname, hp⟩ := Outcome.bind_eq_ok.mp hp
  obtain ⟨shaper, hshaper, hp⟩ := Outcome.bind_eq_ok.mp hp
  rw [h.requireText_eq "id" _ (by simp)] at hname
  have hshaper := Shaper.ofValue_reordered _ _ shaper
    (h.getD_field? List.mem_cons_self (Reordered.shaper_refl .null)) hshaper
  exact Outcome.bind_eq_ok.mpr ⟨name, hname, Outcome.bind_eq_ok.mpr ⟨shaper, hshaper, hp⟩⟩

/-- Objects that are read by name are the same after their list is reordered. -/
theorem Catalogue.readNamed_reordered {α β : Type} {name : α → String} {read : Value → Outcome α}
    {entry : Value → Value → Prop} {t : Table String (Shared α β)} (h : FieldsBy rels v w)
    (hlisted : (key, Reordered.named "id" entry) ∈ rels) (hrefl : ∀ v, entry v v)
    (hr : ∀ v w a, entry v w → read v = .ok a → read w = .ok a)
    (hname : ∀ v a, read v = .ok a → v.text? "id" = some (name a)) (ht : readNamed name read (v.items key) = .ok t) :
    readNamed name read (w.items key) = .ok t := by
  obtain ⟨as, has, ht⟩ := Outcome.bind_eq_ok.mp ht
  obtain ⟨bs, hbs, hsame⟩ := (h.rearranged_items hlisted hrefl).exists_mapM hr name hname has
  cases ht
  refine Outcome.bind_eq_ok.mpr ⟨bs, hbs, ?_⟩
  rw [Table.ofList_congr (hsame.map (fun a => (name a, Shared.unused a)) fun _ => rfl)]
  rfl

end Nodes

section Names
variable {v : Value}

theorem Policy.text?_of_ofValue (v : Value) (p : Policy) (h : ofValue v = .ok p) : v.text? "id" = some p.name := by
  obtain ⟨name, hname, h⟩ := Outcome.bind_eq_ok.mp h
  obtain ⟨_, _, h⟩ := Outcome.bind_eq_ok.mp h
  cases h
  exact Value.requireText_eq_ok.mp hname

theorem Profile.text?_of_ofValue (v : Value) (p : Profile) (h : ofValue v = .ok p) : v.text? "id" = some p.name := by
  obtain ⟨name, hname, h⟩ := Outcome.bind_eq_ok.mp h
  obtain ⟨_, _, h⟩ := Outcome.bind_eq_ok.mp h
  obtain ⟨_, _, h⟩ := Outcome.bind_eq_ok.mp h
  split at h
  all_goals
    obtain ⟨_, _, h⟩ := Outcome.bind_eq_ok.mp h
    cases h
    exact Value.requireText_eq_ok.mp hname

theorem ActionGroup.text?_of_ofValue (v : Value) (g : ActionGroup) (h : ofValue v = .ok g) :
    v.text? "id" = some g.name := by
  obtain ⟨name, hname, h⟩ := Outcome.bind_eq_ok.mp h
  cases h
  exact Value.requireText_eq_ok.mp hname

/-- A map is read as its name and two lists of entries. -/
theorem Outcome.text?_of_map {α β γ : Type} {x : Outcome β} {y : Outcome γ} {make : String → β → γ → α}
    {context : String} {v : Value} {a : α} (name : α → String) (hmake : ∀ n b c, name (make n b c) = n)
    (h : (do let n ← v.requireText "id" context; let b ← x; let c ← y; return make n b c) = Except.ok a) :
    v.text? "id" = some (name a) := by
  obtain ⟨n, hn, h⟩ := Outcome.bind_eq_ok.mp h
  obtain ⟨b, _, h⟩ := Outcome.bind_eq_ok.mp h
  obtain ⟨c, _, h⟩ := Outcome.bind_eq_ok.mp h
  cases h
  rw [hmake]
  exact Value.requireText_eq_ok.mp hn

variable {groups : DscpGroups}

theorem MarkMap.text?_of_ofValue (v : Value) (m : MarkMap) (h : ofValue groups v = .ok m) :
    v.text? "id" = some m.name := Outcome.text?_of_map MarkMap.name (fun _ _ _ => rfl) h

theorem IngressMap.text?_of_ofValue (v : Value) (m : IngressMap) (h : ofValue groups v = .ok m) :
    v.text? "id" = some m.name := Outcome.text?_of_map IngressMap.name (fun _ _ _ => rfl) h

theorem EgressMap.text?_of_ofValue (v : Value) (m : EgressMap) (h : ofValue groups v = .ok m) :
    v.text? "id" = some m.name := Outcome.text?_of_map EgressMap.name (fun _ _ _ => rfl) h

end Names

theorem DscpGroups.ofValues_rearranged {vs ws : List Value}
    (h : Rearranged (fun v => v.text? "group-name") Eq vs ws) : ofValues vs = ofValues ws := by
  obtain ⟨us, hperm, hsame⟩ := h
  rw [List.forall₂_eq_eq_eq] at hsame
  subst hsame
  refine Table.ofList_congr fun name => ?_
  rw [List.filterMap_eq_flatMap_toList, List.filterMap_eq_flatMap_toList, List.filter_flatMap, List.filter_flatMap]
  refine hperm.flatMap_eq (k := name) fun v hne => ?_
  cases hv : v.text? "group-name" with
  | none => simp [hv] at hne
  | some n =>
    have hn : n = name := by simpa [hv] using hne
    rw [hn]

namespace Catalogue
variable {t u : Value}

def policyNode (t : Value) (key : String) : Value := ((t.field? Schema.policy).bind (·.field? key)).getD .null

theorem policyNode_eq (t : Value) (key : String) :
    policyNode t key = (((t.field? Schema.policy).getD .null).field? key).getD .null := by
  rw [policyNode]
  cases t.field? Schema.policy <;> rfl

theorem policyNode_reordered (h : Reordered.tree t u) {key : String} {r : Value → Value → Prop}
    (hr : r .null .null) (hkey : (key, r) ∈ [(Schema.qos, Reordered.qos), (Schema.action, Reordered.action)]) :
    r (policyNode t key) (policyNode u key) := by
  rw [policyNode_eq, policyNode_eq]
  have hpolicy : FieldsBy [(Schema.qos, Reordered.qos), (Schema.action, Reordered.action)]
      ((t.field? Schema.policy).getD .null) ((u.field? Schema.policy).getD .null) :=
    h.getD_field? List.mem_cons_self (Reordered.policyNode_refl .null)
  exact hpolicy.getD_field? hkey hr

theorem dscpGroups_eq (t : Value) : dscpGroups t = DscpGroups.ofValues
    (((((t.field? Schema.resources).getD .null).field? Schema.resourceGroup).getD .null).items Schema.dscpGroup) := by
  rw [dscpGroups]
  cases t.field? Schema.resources with
  | none => rfl
  | some n =>
    rw [Option.bind_some, Option.getD_some]
    cases n.field? Schema.resourceGroup <;> rfl

theorem dscpGroups_reordered (h : Reordered.tree t u) : dscpGroups t = dscpGroups u := by
  have hresources : FieldsBy [(Schema.resourceGroup, Reordered.resourceGroup)]
      ((t.field? Schema.resources).getD .null) ((u.field? Schema.resources).getD .null) :=
    h.getD_field? (by simp) (Reordered.resources_refl .null)
  have hgroup := hresources.getD_field? List.mem_cons_self (Reordered.resourceGroup_refl .null)
  rw [dscpGroups_eq, dscpGroups_eq]
  exact DscpGroups.ofValues_rearranged (hgroup.rearranged_items List.mem_cons_self Eq.refl)

theorem ofTree_reordered (h : Reordered.tree t u) {c : Catalogue} (hc : ofTree t = .ok c) :
    ∃ order, ofTree u = .ok { c with profileOrder := order } := by
  have hqos : Reordered.qos (policyNode t Schema.qos) (policyNode u Schema.qos) :=
    policyNode_reordered h (Reordered.qos_refl .null) (by simp)
  have haction : Reordered.action (policyNode t Schema.action) (policyNode u Schema.action) :=
    policyNode_reordered h (Reordered.action_refl .null) (by simp)
  obtain ⟨policies, hpolicies, hc⟩ := Outcome.bind_eq_ok.mp hc
  obtain ⟨profiles, hprofiles, hc⟩ := Outcome.bind_eq_ok.mp hc
  obtain ⟨markMaps, hmark, hc⟩ := Outcome.bind_eq_ok.mp hc
  obtain ⟨ingressMaps, hingress, hc⟩ := Outcome.bind_eq_ok.mp hc
  obtain ⟨egressMaps, hegress, hc⟩ := Outcome.bind_eq_ok.mp hc
  obtain ⟨actionGroups, hgroups, hc⟩ := Outcome.bind_eq_ok.mp hc
  cases hc
  rw [dscpGroups_reordered h] at hmark hingress hegress
  have hpolicies := readNamed_reordered hqos (by simp) Reordered.policy_refl Policy.ofValue_reordered
    Policy.text?_of_ofValue hpolicies
  obtain ⟨profiles', hprofiles', hsame⟩ :=
    (hqos.rearranged_items (by simp [Reordered.named]) Reordered.profile_refl).exists_mapM
      Profile.ofValue_reordered Profile.name Profile.text?_of_ofValue hprofiles
  have hmark := readNamed_reordered hqos (by simp) Eq.refl Outcome.congr_eq MarkMap.text?_of_ofValue hmark
  have hingress := readNamed_reordered hqos (by simp) Eq.refl Outcome.congr_eq IngressMap.text?_of_ofValue hingress
  have hegress := readNamed_reordered hqos (by simp) Eq.refl Outcome.congr_eq EgressMap.text?_of_ofValue hegress
  have hgroups := readNamed_reordered haction (by simp) Eq.refl Outcome.congr_eq ActionGroup.text?_of_ofValue hgroups
  have hplatform : Platform.ofValue (policyNode t Schema.qos) = Platform.ofValue (policyNode u Schema.qos) := by
    rw [Platform.ofValue, Platform.ofValue, hqos.rest "platform" (by simp)]
  refine ⟨(profiles'.map (·.name)).eraseDups, Outcome.bind_eq_ok.mpr ⟨policies, hpolicies, ?_⟩⟩
  refine Outcome.bind_eq_ok.mpr ⟨profiles', hprofiles', Outcome.bind_eq_ok.mpr ⟨markMaps, hmark, ?_⟩⟩
  refine Outcome.bind_eq_ok.mpr ⟨ingressMaps, hingress, Outcome.bind_eq_ok.mpr ⟨egressMaps, hegress, ?_⟩⟩
  refine Outcome.bind_eq_ok.mpr ⟨actionGroups, hgroups, ?_⟩
  rw [policyNode, policyNode] at hplatform
  rw [Table.ofNamed_congr hsame, hplatform]
  rfl

end Catalogue

theorem Interface.text?_of_ofValue? {kind : InterfaceKind} {v : Value} {i : Interface}
    (h : ofValue? kind v = .ok (some i)) : v.text? "tagnode" = some i.name := by
  obtain ⟨name, hname, h⟩ := Outcome.bind_eq_ok.mp h
  have hi : i.name = name := name_of_ofEntry? h
  rw [hi]
  exact Value.requireText_eq_ok.mp hname

namespace Roster

/-- The LAG entry that an interface comes from, as far as its name tells. -/
def lagOf : Option Membership → String → String
  | none, name => name
  | some m, name => (m.groupOf? name).getD ""

theorem text?_of_mem_ofLag {membership : Option Membership} (hm : ∀ m ∈ membership, m.Exclusive) {lag : Value}
    {is : List Interface} (his : ofLag membership lag = .ok is) {i : Interface} (hi : i ∈ is) :
    lag.text? "tagnode" = some (lagOf membership i.name) := by
  cases membership with
  | none =>
    obtain ⟨j, hj, his⟩ := Outcome.bind_eq_ok.mp his
    cases his
    rw [Option.mem_toList.mp hi] at hj
    exact Interface.text?_of_ofValue? hj
  | some m =>
    obtain ⟨group, hgroup, _⟩ := Outcome.bind_eq_ok.mp his
    have hport := (groupOf?_of_mem_ofLag hgroup his (hm m rfl) hi).1
    rw [lagOf, hport, Option.getD_some]
    exact Value.requireText_eq_ok.mp hgroup

/-- The interfaces of a configuration do not depend on the order of its entries, where every port
is under one LAG at most. -/
theorem ofTree_reordered {t u : Value} {membership : Option Membership} (hm : ∀ m ∈ membership, m.Exclusive)
    (h : Reordered.tree t u) {r : Roster} (hr : ofTree t membership = .ok r) :
    ∃ q, ofTree u membership = .ok q ∧ ∀ name, r.interface? name = q.interface? name := by
  obtain ⟨lags, hlags, hr⟩ := Outcome.bind_eq_ok.mp hr
  obtain ⟨ports, hports, hr⟩ := Outcome.bind_eq_ok.mp hr
  cases hr
  have hnodes : Reordered.interfaces ((t.field? Schema.interfaces).getD .null)
      ((u.field? Schema.interfaces).getD .null) := h.getD_field? (by simp) (Reordered.interfaces_refl .null)
  obtain ⟨lags', hlags', hsame⟩ :=
    (hnodes.rearranged_items (by simp [Reordered.named]) Eq.refl).exists_mapM_flatMap Outcome.congr_eq id
      (fun i => i.name) (lagOf membership) (fun _ _ his _ hi => text?_of_mem_ofLag hm his hi) hlags
  obtain ⟨ports', hports', hsame'⟩ :=
    (hnodes.rearranged_items (by simp [Reordered.named]) Eq.refl).exists_mapM_flatMap Outcome.congr_eq
      (fun o => (id o).toList) (fun i => i.name) id
      (fun v o ho i hi => Interface.text?_of_ofValue? (ho.trans (congrArg _ (Option.mem_toList.mp hi)))) hports
  rw [List.flatMap_id, List.flatMap_id] at hsame
  rw [← List.filterMap_eq_flatMap_toList, ← List.filterMap_eq_flatMap_toList] at hsame'
  -- of a name the last LAG entry counts, and without one the first port entry
  refine ⟨_, Outcome.bind_eq_ok.mpr ⟨lags', hlags', Outcome.bind_eq_ok.mpr ⟨ports', hports', rfl⟩⟩, fun name => ?_⟩
  rw [interface?_foldl_add, interface?_foldl_add, interface?_foldl_put, interface?_foldl_put,
    hsame.reverse.find?_eq, hsame'.find?_eq]

end Roster
end QosControl
