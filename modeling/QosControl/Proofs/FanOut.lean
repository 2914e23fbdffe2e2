import QosControl.Proofs.FastPath
import QosControl.Proofs.ListOrder
import QosControl.Proofs.Subports

/-! # Member ports and the configuration of their LAG

With a membership, a LAG entry that carries anything makes each of its ports what the LAG itself is
without a membership, but for the name and the kind. What the own entry of such a port says does not
count. Every other port has its own first entry that carries anything. The ports of LAGs come before
the others, and the LAGs are not among the interfaces.
-/
namespace QosControl
open Json

namespace Interface
variable {v : Value} {kind : InterfaceKind}

theorem ofEntry?_rename {name other : String} {otherKind : InterfaceKind} {o : Option Interface}
    (h : ofEntry? name kind v = .ok o) :
    ofEntry? other otherKind v = .ok (o.map fun i => { i with name := other, kind := otherKind }) := by
  obtain ⟨vlans, hvlans, h⟩ := Outcome.bind_eq_ok.mp h
  refine Outcome.bind_eq_ok.mpr ⟨vlans, hvlans, congrArg Except.ok ?_⟩
  rw [← Except.ok.inj h]
  split
  next => rfl
  next => rfl

theorem kind_of_ofEntry? {name : String} {i : Interface} (h : ofEntry? name kind v = .ok (some i)) :
    i.kind = kind := by
  obtain ⟨vlans, _, h⟩ := Outcome.bind_eq_ok.mp h
  obtain ⟨_, h⟩ := Option.ite_none_left_eq_some.mp (Except.ok.inj h)
  cases h
  rfl

theorem memberPort?_eq {o : Option Interface} (h : ofValue? .bonding v = .ok o) : ∃ group,
    v.text? "tagnode" = some group ∧ ∀ port, memberPort? port (some v) =
      .ok (o.map fun i => { i with name := port, kind := .memberOf group }) := by
  obtain ⟨group, hgroup, h⟩ := Outcome.bind_eq_ok.mp h
  have hgroup := Value.requireText_eq_ok.mp hgroup
  refine ⟨group, hgroup, fun port => ?_⟩
  exact Outcome.bind_eq_ok.mpr ⟨group, Value.requireText_eq_ok.mpr hgroup, ofEntry?_rename h⟩

theorem memberPort?_of_ofValue? {i : Interface} (h : ofValue? .bonding v = .ok (some i)) (port : String) :
    memberPort? port (some v) = .ok (some { i with name := port, kind := .memberOf i.name }) := by
  obtain ⟨group, hgroup, hport⟩ := memberPort?_eq h
  cases hgroup.symm.trans (text?_of_ofValue? h)
  exact hport port

theorem exists_ofValue?_of_memberPort? {port : String} {j : Interface}
    (h : memberPort? port (some v) = .ok (some j)) : ∃ i, ofValue? .bonding v = .ok (some i) ∧
      j = { i with name := port, kind := .memberOf i.name } := by
  obtain ⟨group, hgroup, hentry⟩ := Outcome.bind_eq_ok.mp h
  have hgroup := Value.requireText_eq_ok.mp hgroup
  have hlag : ofValue? .bonding v = .ok (some { j with name := group, kind := .bonding }) :=
    Outcome.bind_eq_ok.mpr ⟨group, Value.requireText_eq_ok.mpr hgroup, ofEntry?_rename hentry⟩
  refine ⟨_, hlag, ?_⟩
  have hport := memberPort?_of_ofValue? hlag port
  exact Option.some.inj (Except.ok.inj (h.symm.trans hport))

end Interface

namespace Roster

def lagEntries (tree : Value) : List Value := ((tree.field? Schema.interfaces).getD .null).items Schema.bonding

def portEntries (tree : Value) : List Value := ((tree.field? Schema.interfaces).getD .null).items Schema.dataplane

/-- Whether a LAG entry of a configuration carries what makes it an interface. -/
def HasLag (tree : Value) (i : Interface) : Prop :=
  ∃ lag ∈ lagEntries tree, Interface.ofValue? .bonding lag = .ok (some i)

/-- Whether a port is in a LAG with an entry that carries anything. -/
def Governed (tree : Value) (m : Membership) (port : String) : Prop :=
  ∃ i, HasLag tree i ∧ ∃ x ∈ m.members i.name, x.port = port

/-- What the first entry of a port that carries anything makes of it. -/
def ownInterface? (tree : Value) (port : String) : Option Interface :=
  (portEntries tree).findSome? fun v => ((Interface.ofValue? .dataplane v).toOption.bind id).filter (·.name = port)

/-- Whether an entry is kept, or is one of a port and replaced by one of this port that can be read. -/
def ReplacesEntry (port : String) (v w : Value) : Prop :=
  w = v ∨ v.text? "tagnode" = some port ∧ w.text? "tagnode" = some port ∧ ∃ o, Interface.ofValue? .dataplane w = .ok o

/-- Whether a configuration is another one in which entries of a port are replaced. -/
structure ReplacesEntries (port : String) (t u : Value) : Prop where
  rest : ∀ key, key ≠ Schema.interfaces → u.field? key = t.field? key
  lags : lagEntries u = lagEntries t
  ports : List.Forall₂ (ReplacesEntry port) (portEntries t) (portEntries u)

/-- Whether what two entries make differs at most for a port. -/
def AgreesBeside (port : String) (o p : Option Interface) : Prop :=
  p = o ∨ (∀ i ∈ o, i.name = port) ∧ ∀ i ∈ p, i.name = port

section Fold
variable {r : Roster} {is : List Interface} {i : Interface}

theorem mem_interfaces_foldl_put (hi : i ∈ (is.foldl put empty).interfaces) : i ∈ is := by
  have hfind := interface?_of_mem hi
  rw [interface?_foldl_put, Option.or_eq_some_iff] at hfind
  rcases hfind with hlag | ⟨_, hempty⟩
  · exact List.mem_reverse.mp (List.mem_of_find?_eq_some hlag)
  · cases hempty

theorem name_mem_names_foldl_put (hi : i ∈ is) : i.name ∈ (is.foldl put r).names := by
  have hsome : ((is.foldl put r).interface? i.name).isSome = true := by
    rw [interface?_foldl_put, Option.isSome_or, Bool.or_eq_true]
    exact .inl (List.find?_isSome.mpr ⟨i, List.mem_reverse.mpr hi, by simp⟩)
  obtain ⟨j, hj⟩ := Option.isSome_iff_exists.mp hsome
  exact List.mem_map.mpr ⟨j, List.mem_of_find?_eq_some hj, by simpa using List.find?_some hj⟩

theorem interfaces_foldl_add (is : List Interface) (r : Roster) :
    ∃ rest, (is.foldl add r).interfaces = r.interfaces ++ rest ∧ rest ⊆ is := by
  induction is generalizing r with
  | nil => exact ⟨[], by simp, List.nil_subset _⟩
  | cons i is ih =>
    obtain ⟨rest, hrest, hsub⟩ := ih (r.add i)
    rw [List.foldl_cons, hrest, add]
    split
    next => exact ⟨rest, rfl, List.subset_cons_of_subset i hsub⟩
    next => exact ⟨i :: rest, by simp, List.cons_subset_cons i hsub⟩

theorem add_eq_self (h : i.name ∈ r.names) : r.add i = r := dif_pos h

theorem names_subset_add (r : Roster) (i : Interface) : r.names ⊆ (r.add i).names := by
  rw [add]
  split
  next => exact List.Subset.refl _
  next => simp [names]

theorem foldl_add_of_taken {port : String} (hr : port ∈ r.names) {o : Option Interface} (ho : ∀ i ∈ o, i.name = port)
    (os : List (Option Interface)) : ((o :: os).filterMap id).foldl add r = (os.filterMap id).foldl add r := by
  cases o with
  | none => rfl
  | some i =>
    have hname : i.name ∈ r.names := by
      rw [ho i rfl]
      exact hr
    have hcons : (some i :: os).filterMap id = i :: os.filterMap id := rfl
    rw [hcons, List.foldl_cons, add_eq_self hname]

theorem foldl_add_congr {port : String} {os ps : List (Option Interface)}
    (h : List.Forall₂ (AgreesBeside port) os ps) (hr : port ∈ r.names) :
    (ps.filterMap id).foldl add r = (os.filterMap id).foldl add r := by
  induction h generalizing r with
  | nil => rfl
  | @cons o p os ps hop _ ih =>
    rcases hop with rfl | ⟨ho, hp⟩
    · cases p with
      | none => exact ih hr
      | some i => exact ih (names_subset_add r i hr)
    · rw [foldl_add_of_taken hr ho, foldl_add_of_taken hr hp, ih hr]

end Fold

section Read
variable {tree : Value} {m : Membership}

/-- A roster is read from the LAG entries and the entries of ports, those of ports being added after. -/
theorem ofTree_eq_ok {membership : Option Membership} {r : Roster} : ofTree tree membership = .ok r ↔
    ∃ lags os, (lagEntries tree).mapM (ofLag membership) = .ok lags ∧
      (portEntries tree).mapM (Interface.ofValue? .dataplane) = .ok os ∧
      r = (os.filterMap id).foldl add (lags.flatten.foldl put empty) := by
  constructor
  · intro hr
    obtain ⟨lags, hlags, hr⟩ := Outcome.bind_eq_ok.mp hr
    obtain ⟨os, hos, hr⟩ := Outcome.bind_eq_ok.mp hr
    exact ⟨lags, os, hlags, hos, (Except.ok.inj hr).symm⟩
  · rintro ⟨lags, os, hlags, hos, rfl⟩
    exact Outcome.bind_eq_ok.mpr ⟨lags, hlags, Outcome.bind_eq_ok.mpr ⟨os, hos, rfl⟩⟩

theorem mem_flatten_lags {lags : List (List Interface)} (hlags : (lagEntries tree).mapM (ofLag (some m)) = .ok lags)
    {j : Interface} : j ∈ lags.flatten ↔ ∃ i, HasLag tree i ∧ ∃ x ∈ m.members i.name,
      j = { i with name := x.port, kind := .memberOf i.name } := by
  rw [List.mem_flatten]
  constructor
  · rintro ⟨is, his, hj⟩
    obtain ⟨lag, hlag, his⟩ := (Outcome.mem_of_mapM hlags is).mp his
    obtain ⟨group, hgroup, _⟩ := Outcome.bind_eq_ok.mp his
    obtain ⟨x, hx, hj⟩ := (mem_ofLag hgroup his).mp hj
    obtain ⟨i, hi, rfl⟩ := Interface.exists_ofValue?_of_memberPort? hj
    have hname : group = i.name := Option.some.inj
      ((Value.requireText_eq_ok.mp hgroup).symm.trans (Interface.text?_of_ofValue? hi))
    subst hname
    exact ⟨i, ⟨lag, hlag, hi⟩, x, hx, rfl⟩
  · rintro ⟨i, ⟨lag, hlag, hi⟩, x, hx, rfl⟩
    obtain ⟨hall, _⟩ := Outcome.mapM_eq_ok_iff.mp hlags
    obtain ⟨is, his⟩ := hall lag hlag
    have hgroup : lag.requireText "tagnode" "bonding" = .ok i.name :=
      Value.requireText_eq_ok.mpr (Interface.text?_of_ofValue? hi)
    refine ⟨is, (Outcome.mem_of_mapM hlags is).mpr ⟨lag, hlag, his⟩, ?_⟩
    exact (mem_ofLag hgroup his).mpr ⟨x, hx, Interface.memberPort?_of_ofValue? hi x.port⟩

theorem HasLag.unique (hnodup : ((lagEntries tree).map fun v => v.text? "tagnode").Nodup) {i j : Interface}
    (hi : HasLag tree i) (hj : HasLag tree j) (h : i.name = j.name) : i = j := by
  obtain ⟨v, hv, hi⟩ := hi
  obtain ⟨w, hw, hj⟩ := hj
  have htext : v.text? "tagnode" = w.text? "tagnode" := by
    rw [Interface.text?_of_ofValue? hi, Interface.text?_of_ofValue? hj, h]
  cases List.inj_on_of_nodup_map hnodup hv hw htext
  exact Option.some.inj (Except.ok.inj (hi.symm.trans hj))

theorem find?_eq_of_unique {is : List Interface} {i : Interface} (hi : i ∈ is)
    (h : ∀ j ∈ is, j.name = i.name → j = i) : (is.find? fun j => j.name = i.name) = some i := by
  obtain ⟨j, hj⟩ : ∃ j, (is.find? fun j => j.name = i.name) = some j :=
    Option.isSome_iff_exists.mp (List.find?_isSome.mpr ⟨i, hi, by simp⟩)
  have hname : j.name = i.name := by simpa using List.find?_some hj
  rw [hj, h j (List.mem_of_find?_eq_some hj) hname]

theorem interface?_of_flatten {lags : List (List Interface)} {ports : List Interface} {i : Interface}
    (hi : i ∈ lags.flatten) (h : ∀ j ∈ lags.flatten, j.name = i.name → j = i) :
    (ports.foldl add (lags.flatten.foldl put empty)).interface? i.name = some i := by
  have hfind : (lags.flatten.reverse.find? fun j => j.name = i.name) = some i :=
    find?_eq_of_unique (List.mem_reverse.mpr hi) fun j hj => h j (List.mem_reverse.mp hj)
  rw [interface?_foldl_add, interface?_foldl_put, hfind]
  rfl

theorem interface?_of_hasLag (hm : m.Exclusive) (hnodup : ((lagEntries tree).map fun v => v.text? "tagnode").Nodup)
    {r : Roster} (hr : ofTree tree (some m) = .ok r) {i : Interface} (hi : HasLag tree i) {x : Member}
    (hx : x ∈ m.members i.name) :
    r.interface? x.port = some { i with name := x.port, kind := .memberOf i.name } := by
  obtain ⟨lags, os, hlags, _, rfl⟩ := ofTree_eq_ok.mp hr
  refine interface?_of_flatten (i := { i with name := x.port, kind := .memberOf i.name })
    ((mem_flatten_lags hlags).mpr ⟨i, hi, x, hx, rfl⟩) ?_
  intro k hk hname
  obtain ⟨j, hj, y, hy, rfl⟩ := (mem_flatten_lags hlags).mp hk
  have hport : y.port = x.port := hname
  have hgroup : m.groupOf? x.port = some j.name := (Membership.groupOf?_eq_some_iff hm).mpr ⟨y, hy, hport⟩
  have hsame : j.name = i.name := Option.some.inj
    (hgroup.symm.trans ((Membership.groupOf?_eq_some_iff hm).mpr ⟨x, hx, rfl⟩))
  rw [hj.unique hnodup hi hsame, hport]

theorem mem_flatten_lags_none {lags : List (List Interface)} (hlags : (lagEntries tree).mapM (ofLag none) = .ok lags)
    {j : Interface} : j ∈ lags.flatten ↔ HasLag tree j := by
  rw [List.mem_flatten]
  constructor
  · rintro ⟨is, his, hj⟩
    obtain ⟨lag, hlag, his⟩ := (Outcome.mem_of_mapM hlags is).mp his
    obtain ⟨o, ho, his⟩ := Outcome.bind_eq_ok.mp his
    cases his
    rw [Option.mem_toList.mp hj] at ho
    exact ⟨lag, hlag, ho⟩
  · rintro ⟨lag, hlag, hj⟩
    have his : ofLag none lag = .ok [j] := Outcome.bind_eq_ok.mpr ⟨some j, hj, rfl⟩
    exact ⟨[j], (Outcome.mem_of_mapM hlags _).mpr ⟨lag, hlag, his⟩, List.mem_singleton_self j⟩

theorem interface?_lag (hnodup : ((lagEntries tree).map fun v => v.text? "tagnode").Nodup) {r : Roster}
    (hr : ofTree tree none = .ok r) {i : Interface} (hi : HasLag tree i) : r.interface? i.name = some i := by
  obtain ⟨lags, os, hlags, _, rfl⟩ := ofTree_eq_ok.mp hr
  refine interface?_of_flatten ((mem_flatten_lags_none hlags).mpr hi) fun j hj hname => ?_
  exact ((mem_flatten_lags_none hlags).mp hj).unique hnodup hi hname

/-- LAG entries that can be read without a membership can be read with any. -/
theorem exists_ofTree {r : Roster} (hr : ofTree tree none = .ok r) (m : Membership) :
    ∃ q, ofTree tree (some m) = .ok q := by
  obtain ⟨lags, os, hlags, hos, _⟩ := ofTree_eq_ok.mp hr
  have hall : ∀ lag ∈ lagEntries tree, ∃ is, ofLag (some m) lag = .ok is := by
    intro lag hlag
    obtain ⟨_, his⟩ := (Outcome.mapM_eq_ok_iff.mp hlags).1 lag hlag
    obtain ⟨o, ho, _⟩ := Outcome.bind_eq_ok.mp his
    obtain ⟨group, hgroup, hport⟩ := Interface.memberPort?_eq ho
    have hmembers : ∃ is, (m.members group).mapM (fun x => Interface.memberPort? x.port (some lag)) = .ok is :=
      ⟨_, Outcome.mapM_eq_ok_iff.mpr ⟨fun x _ => ⟨_, hport x.port⟩, rfl⟩⟩
    obtain ⟨is, his⟩ := hmembers
    exact ⟨_, Outcome.bind_eq_ok.mpr ⟨group, Value.requireText_eq_ok.mpr hgroup,
      Outcome.bind_eq_ok.mpr ⟨is, his, rfl⟩⟩⟩
  have hlags' := Outcome.mapM_eq_ok_iff.mpr ⟨hall, rfl⟩
  exact ⟨_, ofTree_eq_ok.mpr ⟨_, os, hlags', hos, rfl⟩⟩

theorem find?_filterMap_eq {vs : List Value} {os : List (Option Interface)} {port : String}
    (hos : vs.mapM (Interface.ofValue? .dataplane) = .ok os) : (os.filterMap id).find? (fun i => i.name = port) =
      vs.findSome? fun v => ((Interface.ofValue? .dataplane v).toOption.bind id).filter (·.name = port) := by
  induction vs generalizing os with
  | nil =>
    cases hos
    rfl
  | cons v vs ih =>
    obtain ⟨o, rest, ho, hrest, rfl⟩ := Outcome.mapM_cons_eq_ok.mp hos
    have hread : (Interface.ofValue? .dataplane v).toOption.bind id = o := by
      rw [ho]
      rfl
    rw [List.findSome?_cons, hread]
    cases o with
    | none =>
      have hskip : (none :: rest).filterMap id = rest.filterMap id := rfl
      rw [hskip, ih hrest, Option.filter_none]
    | some i =>
      have hcons : (some i :: rest).filterMap id = i :: rest.filterMap id := rfl
      rw [hcons, List.find?_cons, ih hrest]
      by_cases hname : i.name = port <;> simp [hname, Option.filter_some]

/-- A port that no LAG gives anything has its own entry. -/
theorem interface?_of_not_governed {r : Roster} (hr : ofTree tree (some m) = .ok r) {port : String}
    (h : ¬ Governed tree m port) : r.interface? port = ownInterface? tree port := by
  obtain ⟨lags, os, hlags, hos, rfl⟩ := ofTree_eq_ok.mp hr
  have hnone : (lags.flatten.reverse.find? fun j => j.name = port) = none := by
    refine List.find?_eq_none.mpr fun j hj hname => h ?_
    obtain ⟨i, hi, x, hx, rfl⟩ := (mem_flatten_lags hlags).mp (List.mem_reverse.mp hj)
    exact ⟨i, hi, x, hx, of_decide_eq_true hname⟩
  rw [interface?_foldl_add, interface?_foldl_put, hnone, find?_filterMap_eq hos]
  rfl

theorem exists_mapM_of_replaced {port : String} {vs ws : List Value} {os : List (Option Interface)}
    (h : List.Forall₂ (ReplacesEntry port) vs ws) (hos : vs.mapM (Interface.ofValue? .dataplane) = .ok os) :
    ∃ ps, ws.mapM (Interface.ofValue? .dataplane) = .ok ps ∧ List.Forall₂ (AgreesBeside port) os ps := by
  have hname : ∀ {v : Value} {o : Option Interface}, v.text? "tagnode" = some port →
      Interface.ofValue? .dataplane v = .ok o → ∀ i ∈ o, i.name = port := by
    rintro v o hv ho i rfl
    exact Option.some.inj ((Interface.text?_of_ofValue? ho).symm.trans hv)
  induction h generalizing os with
  | nil =>
    cases hos
    exact ⟨[], rfl, .nil⟩
  | @cons v w vs ws hvw _ ih =>
    obtain ⟨o, rest, ho, hrest, rfl⟩ := Outcome.mapM_cons_eq_ok.mp hos
    obtain ⟨ps, hps, hrel⟩ := ih hrest
    rcases hvw with rfl | ⟨hv, hw, p, hp⟩
    · exact ⟨o :: ps, Outcome.mapM_cons_eq_ok.mpr ⟨o, ps, ho, hps, rfl⟩, .cons (.inl rfl) hrel⟩
    · exact ⟨p :: ps, Outcome.mapM_cons_eq_ok.mpr ⟨p, ps, hp, hps, rfl⟩,
        .cons (.inr ⟨hname hv ho, hname hw hp⟩) hrel⟩

/-- A port that a LAG gives something does not depend on its own entries. -/
theorem ofTree_replacesEntries {other : Value} {port : String} (h : ReplacesEntries port tree other)
    (hport : Governed tree m port) {r : Roster} (hr : ofTree tree (some m) = .ok r) :
    ofTree other (some m) = .ok r := by
  obtain ⟨lags, os, hlags, hos, rfl⟩ := ofTree_eq_ok.mp hr
  have hlags' : (lagEntries other).mapM (ofLag (some m)) = .ok lags := by
    rw [h.lags]
    exact hlags
  obtain ⟨ps, hps, hrel⟩ := exists_mapM_of_replaced h.ports hos
  obtain ⟨i, hi, x, hx, rfl⟩ := hport
  have htaken : x.port ∈ (lags.flatten.foldl put empty).names :=
    name_mem_names_foldl_put ((mem_flatten_lags hlags).mpr ⟨i, hi, x, hx, rfl⟩)
  exact ofTree_eq_ok.mpr ⟨lags, ps, hlags', hps, (foldl_add_congr hrel htaken).symm⟩

theorem exists_interfaces_eq {r : Roster} (hr : ofTree tree (some m) = .ok r) : ∃ members ports,
    r.interfaces = members ++ ports ∧ (∀ i ∈ members, ∃ group, i.kind = .memberOf group) ∧
      ∀ i ∈ ports, i.kind = .dataplane := by
  obtain ⟨lags, os, hlags, hos, rfl⟩ := ofTree_eq_ok.mp hr
  obtain ⟨rest, hrest, hsub⟩ := interfaces_foldl_add (os.filterMap id) (lags.flatten.foldl put empty)
  refine ⟨_, rest, hrest, fun j hj => ?_, fun j hj => ?_⟩
  · obtain ⟨i, _, x, _, rfl⟩ := (mem_flatten_lags hlags).mp (mem_interfaces_foldl_put hj)
    exact ⟨i.name, rfl⟩
  · obtain ⟨o, ho, rfl⟩ := List.mem_filterMap.mp (hsub hj)
    obtain ⟨v, _, hv⟩ := (Outcome.mem_of_mapM hos _).mp ho
    obtain ⟨name, _, hv⟩ := Outcome.bind_eq_ok.mp hv
    exact Interface.kind_of_ofEntry? hv

end Read
end Roster

namespace Snapshot
open Roster
variable {tree : Value} {m : Membership}

/-- How the configuration of the LAGs of a tree spreads to their ports. -/
structure FansOut (tree : Value) (m : Membership) (s : Snapshot) : Prop where
  /-- Where the entries of LAGs have distinct names, a port of a LAG has the subports, the maps, the
  profile numbers and the lines that the LAG has where no membership is known. -/
  member : ((lagEntries tree).map fun v => v.text? "tagnode").Nodup → ∀ i, HasLag tree i →
    ∃ index, ∃ lines : LimitCapability → List PortDirective,
      (∀ plain, ofTree tree none = .ok plain → plain.port? i.name = some ⟨i, index⟩ ∧
        ∀ platform, plain.attachment platform ⟨i, index⟩ = (lines platform).map (.port i.name)) ∧
      ∀ x ∈ m.members i.name, ∃ p, s.port? x.port = some p ∧ p.index = index ∧
        p.interface = { i with name := x.port, kind := .memberOf i.name } ∧
          ∀ platform, s.attachment platform p = (lines platform).map (.port x.port)
  /-- What the own entries of a port of a LAG say does not count. -/
  replaced : ∀ port, Governed tree m port → ∀ other, ReplacesEntries port tree other →
    ofTree other (some m) = .ok s
  own : ∀ port, ¬ Governed tree m port → (s.port? port).map (·.interface) = ownInterface? tree port
  kinds : ∀ p ∈ s.ports, p.interface.kind ≠ .bonding
  order : ∃ members ports, s.ports = members ++ ports ∧ (∀ p ∈ members, ∃ group, p.interface.kind = .memberOf group) ∧
    ∀ p ∈ ports, p.interface.kind = .dataplane
  names : s.names.Nodup

theorem catalogue_of_replacesEntries {port : String} {other : Value} (h : ReplacesEntries port tree other) :
    Catalogue.ofTree other = Catalogue.ofTree tree := by
  have hpolicy := h.rest Schema.policy (by decide)
  have hresources := h.rest Schema.resources (by decide)
  rw [Catalogue.ofTree, Catalogue.ofTree, Catalogue.dscpGroups, Catalogue.dscpGroups, hpolicy, hresources]

/-- A port has the lines of its LAG, since neither its name nor its kind is in them. -/
theorem directives_rename (c : Catalogue) (platform : LimitCapability) (i : Interface) (index : ProfileIndex)
    (name : String) (kind : InterfaceKind) :
    directives c platform ⟨{ i with name, kind }, index⟩ = directives c platform ⟨i, index⟩ := rfl

theorem fansOut_of_ofParts (hm : m.Exclusive) {c : Catalogue} (hc : Catalogue.ofTree tree = .ok c) {r : Roster}
    (hr : Roster.ofTree tree (some m) = .ok r) : FansOut tree m (ofParts c r) where
  member := by
    intro hnodup i hi
    refine ⟨c.profileIndex i, fun platform => directives (ofParts c r).catalogue platform ⟨i, c.profileIndex i⟩, ?_, ?_⟩
    · intro plain hplain
      obtain ⟨d, hd, hplain⟩ := Outcome.bind_eq_ok.mp hplain
      obtain ⟨q, hq, hplain⟩ := Outcome.bind_eq_ok.mp hplain
      cases hplain
      cases hc.symm.trans hd
      have hsiblings : Siblings (ofParts c q) (ofParts c r) := ⟨c, q, r, rfl, rfl⟩
      refine ⟨by rw [port?_ofParts, interface?_lag hnodup hq hi, Option.map_some], fun platform => ?_⟩
      rw [attachment, hsiblings.directives_eq]
      rfl
    · intro x hx
      refine ⟨_, by rw [port?_ofParts, interface?_of_hasLag hm hnodup hr hi hx, Option.map_some], rfl, rfl, ?_⟩
      intro platform
      rw [attachment, directives_rename]
      rfl
  replaced := by
    intro port hport other h
    have hcatalogue := (catalogue_of_replacesEntries h).trans hc
    exact Outcome.bind_eq_ok.mpr ⟨c, hcatalogue, Outcome.bind_eq_ok.mpr ⟨r, ofTree_replacesEntries h hport hr, rfl⟩⟩
  own := by
    intro port hport
    rw [port?_ofParts, Option.map_map, interface?_of_not_governed hr hport]
    exact Option.map_id'
  kinds := by
    intro p hp hkind
    obtain ⟨members, ports, heq, hmembers, hports⟩ := exists_interfaces_eq hr
    obtain ⟨i, hi, rfl⟩ := List.mem_map.mp hp
    rw [heq] at hi
    rcases List.mem_append.mp hi with hi | hi
    · obtain ⟨group, hgroup⟩ := hmembers i hi
      cases hgroup.symm.trans hkind
    · cases (hports i hi).symm.trans hkind
  order := by
    obtain ⟨members, ports, heq, hmembers, hports⟩ := exists_interfaces_eq hr
    let port := fun i : Interface => (⟨i, c.profileIndex i⟩ : Port)
    refine ⟨members.map port, ports.map port, ?_, ?_, ?_⟩
    · rw [← List.map_append, ← heq]
      rfl
    · exact List.forall_mem_map.mpr hmembers
    · exact List.forall_mem_map.mpr hports
  names := (ofParts c r).distinct

/-- A tree that can be read can be read with any membership, and in the snapshot the configuration of the
LAGs has spread to their ports. -/
theorem fansOut_of_exclusive (hm : m.Exclusive) (tree : Value) :
    ((∃ plain, ofTree tree none = .ok plain) → ∃ s, ofTree tree (some m) = .ok s) ∧
      ∀ s, ofTree tree (some m) = .ok s → FansOut tree m s := by
  constructor
  · rintro ⟨plain, hplain⟩
    obtain ⟨c, hc, hplain⟩ := Outcome.bind_eq_ok.mp hplain
    obtain ⟨q, hq, _⟩ := Outcome.bind_eq_ok.mp hplain
    obtain ⟨r, hr⟩ := exists_ofTree hq m
    exact ⟨ofParts c r, Outcome.bind_eq_ok.mpr ⟨c, hc, Outcome.bind_eq_ok.mpr ⟨r, hr, rfl⟩⟩⟩
  · intro s hs
    obtain ⟨c, hc, hs⟩ := Outcome.bind_eq_ok.mp hs
    obtain ⟨r, hr, hs⟩ := Outcome.bind_eq_ok.mp hs
    cases hs
    exact fansOut_of_ofParts hm hc hr

section Listing
variable {policies lags : List Value}

theorem entries_listing (ports : List Value) : lagEntries (Plan.listing policies lags ports) = lags ∧
    portEntries (Plan.listing policies lags ports) = ports := by
  constructor <;>
    simp [lagEntries, portEntries, Plan.listing, Value.field?, Value.items, Schema.policy, Schema.interfaces,
      Schema.bonding, Schema.dataplane]

theorem replacesEntries_listing {before after : List Value} {v w : Value} {port : String}
    (hv : v.text? "tagnode" = some port) (hw : w.text? "tagnode" = some port) {o : Option Interface}
    (ho : Interface.ofValue? .dataplane w = .ok o) : ReplacesEntries port
      (Plan.listing policies lags (before ++ v :: after)) (Plan.listing policies lags (before ++ w :: after)) where
  rest := by
    intro key hkey
    have hother : (Schema.interfaces == key) = false := beq_eq_false_iff_ne.mpr (Ne.symm hkey)
    simp only [Plan.listing, Value.field?, List.find?_cons, hother]
  lags := by rw [(entries_listing _).1, (entries_listing _).1]
  ports := by
    rw [(entries_listing _).2, (entries_listing _).2]
    have hsame : ∀ vs : List Value, List.Forall₂ (ReplacesEntry port) vs vs :=
      fun vs => List.forall₂_same.mpr fun _ _ => .inl rfl
    exact List.rel_append (hsame before) (.cons (.inr ⟨hv, hw, o, ho⟩) (hsame after))

end Listing

theorem fansOut_of_exclusive_two :
    let policies := [Scenario.simplePolicy "p1" "1Gbit" "prof" "1Gbit", Scenario.simplePolicy "p2" "2Gbit" "prof" "1Gbit"]
    let lags := [Scenario.port "dp0bond0" "p1" []]
    let tree := Plan.listing policies lags [Scenario.port "dp0s1" "p2" [], Scenario.port "dp0s3" "p2" []]
    let other := Plan.listing policies lags [Scenario.port "dp0s1" "p1" [], Scenario.port "dp0s3" "p2" []]
    let m := Membership.ofPorts [("dp0bond0", ["dp0s1", "dp0s2"])]
    ∃ s, ofTree tree (some m) = .ok s ∧ s.names = ["dp0s1", "dp0s2", "dp0s3"] ∧ FansOut tree m s ∧
      ofTree other (some m) = .ok s := by
  intro policies lags tree other m
  have hplain : (ofTree tree none).toOption.isSome = true := by decide +kernel
  obtain ⟨plain, hplain⟩ := Option.isSome_iff_exists.mp hplain
  have hexclusive : m.Exclusive := by decide +kernel
  obtain ⟨s, hs⟩ := (fansOut_of_exclusive hexclusive tree).1 ⟨plain, Outcome.eq_ok_of_toOption hplain⟩
  have hfans := (fansOut_of_exclusive hexclusive tree).2 s hs
  have hnames : (ofTree tree (some m)).toOption.map names = some ["dp0s1", "dp0s2", "dp0s3"] := by decide +kernel
  rw [hs] at hnames
  have hlag : (Interface.ofValue? .bonding (Scenario.port "dp0bond0" "p1" [])).toOption.any fun o => o.any fun i =>
      "dp0s1" ∈ (m.members i.name).map (·.port) := by decide +kernel
  obtain ⟨o, ho, hlag⟩ := (Option.any_eq_true _ _).mp hlag
  obtain ⟨i, rfl, hlag⟩ := (Option.any_eq_true _ _).mp hlag
  have hgoverned : Governed tree m "dp0s1" := by
    refine ⟨i, ⟨_, ?_, Outcome.eq_ok_of_toOption ho⟩, List.mem_map.mp (of_decide_eq_true hlag)⟩
    rw [(entries_listing _).1]
    exact List.mem_singleton_self _
  have hown : (Interface.ofValue? .dataplane (Scenario.port "dp0s1" "p1" [])).toOption.isSome = true := by decide +kernel
  obtain ⟨own, hown⟩ := Option.isSome_iff_exists.mp hown
  have hreplaces : ReplacesEntries "dp0s1" (Plan.listing policies lags ([] ++ Scenario.port "dp0s1" "p2" [] :: _))
      (Plan.listing policies lags ([] ++ Scenario.port "dp0s1" "p1" [] :: [Scenario.port "dp0s3" "p2" []])) :=
    replacesEntries_listing (by decide +kernel) (by decide +kernel) (Outcome.eq_ok_of_toOption hown)
  exact ⟨s, hs, Option.some.inj hnames, hfans, hfans.replaced _ hgoverned _ hreplaces⟩

end Snapshot
end QosControl
