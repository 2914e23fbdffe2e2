import QosControl.Proofs.Runs

/-! # Ports and their LAGs

What interface a port is depends on a LAG membership through the LAG of the port alone: a LAG
entry gives its configuration to its own ports and says nothing of others, the last LAG entry
that gives a port anything wins, and a port that none of them configures has its own entry.
-/
namespace QosControl
open Json

theorem Outcome.mapM_cons_eq_ok {α β : Type} {f : α → Outcome β} {a : α} {as : List α} {cs : List β} :
    (a :: as).mapM f = .ok cs ↔ ∃ b bs, f a = .ok b ∧ as.mapM f = .ok bs ∧ cs = b :: bs := by
  simp only [List.mapM_cons, bind_eq_ok]
  constructor
  · rintro ⟨b, hb, bs, hbs, h⟩
    exact ⟨b, bs, hb, hbs, (Except.ok.inj h).symm⟩
  · rintro ⟨b, bs, hb, hbs, rfl⟩
    exact ⟨b, hb, bs, hbs, rfl⟩

theorem Outcome.mem_of_mapM {α β : Type} {f : α → Outcome β} {as : List α} {bs : List β}
    (h : as.mapM f = .ok bs) (b : β) : b ∈ bs ↔ ∃ a ∈ as, f a = .ok b := by
  induction as generalizing bs with
  | nil =>
    cases h
    simp
  | cons a as ih =>
    obtain ⟨c, cs, hc, hcs, rfl⟩ := mapM_cons_eq_ok.mp h
    rw [List.mem_cons, ih hcs]
    simp [hc, eq_comm]

namespace Membership
variable {m old new : Membership} {port group : String}

/-- Where a port is under one LAG at most, its LAG is the one that lists it. -/
theorem groupOf?_eq_some_iff (h : m.Exclusive) :
    m.groupOf? port = some group ↔ ∃ x ∈ m.members group, x.port = port := by
  have hmembers : (∃ x ∈ m.members group, x.port = port) ↔
      ∃ ms, m.groups.get? group = some ms ∧ ∃ x ∈ ms, x.port = port := by
    rw [members]
    cases m.groups.get? group <;> simp
  rw [hmembers, groupOf?, Option.map_eq_some_iff]
  constructor
  · rintro ⟨g, hg, rfl⟩
    have hport : ∃ x ∈ g.2, x.port = port := by simpa using List.find?_some hg
    exact ⟨g.2, Table.get?_of_mem_entries (List.mem_of_find?_eq_some hg), hport⟩
  · rintro ⟨ms, hms, x, hx, hport⟩
    have hmem : (group, ms) ∈ m.groups.entries := Table.mem_entries_of_get? hms
    obtain ⟨g, hg⟩ : ∃ g, (m.groups.entries.find? fun g => g.2.any fun x => x.port = port) = some g := by
      refine Option.isSome_iff_exists.mp (List.find?_isSome.mpr ⟨(group, ms), hmem, ?_⟩)
      exact List.any_eq_true.mpr ⟨x, hx, by simpa using hport⟩
    obtain ⟨y, hy, hyport⟩ : ∃ y ∈ g.2, y.port = port := by simpa using List.find?_some hg
    refine ⟨g, hg, ?_⟩
    exact h g (List.mem_of_find?_eq_some hg) _ hmem y hy x hx (hyport.trans hport.symm)

theorem mem_ports_of_groupOf? (h : m.groupOf? port = some group) : port ∈ m.ports := by
  obtain ⟨g, hg, _⟩ := Option.map_eq_some_iff.mp h
  obtain ⟨x, hx, hport⟩ : ∃ x ∈ g.2, x.port = port := by simpa using List.find?_some hg
  have hvalues : g.2 ∈ m.groups.values := List.mem_map_of_mem (List.mem_of_find?_eq_some hg)
  exact List.mem_map.mpr ⟨x, List.mem_flatten.mpr ⟨g.2, hvalues, hx⟩, hport⟩

theorem mem_changedPorts : port ∈ changedPorts old new ↔ old.groupOf? port ≠ new.groupOf? port := by
  rw [changedPorts, mem_sortedKeys, List.mem_filter, List.mem_append, decide_eq_true_eq]
  refine ⟨fun h => h.2, fun h => ⟨?_, h⟩⟩
  cases ho : old.groupOf? port with
  | some g => exact .inl (mem_ports_of_groupOf? ho)
  | none =>
    cases hn : new.groupOf? port with
    | some g => exact .inr (mem_ports_of_groupOf? hn)
    | none => exact absurd (ho.trans hn.symm) h

end Membership

theorem Interface.name_of_ofEntry? {name : String} {kind : InterfaceKind} {v : Value} {i : Interface}
    (h : ofEntry? name kind v = .ok (some i)) : i.name = name := by
  obtain ⟨vlans, _, h⟩ := Outcome.bind_eq_ok.mp h
  obtain ⟨_, h⟩ := Option.ite_none_left_eq_some.mp (Except.ok.inj h)
  cases h
  rfl

theorem Interface.name_of_memberPort? {port : String} {lag : Value} {i : Interface}
    (h : memberPort? port (some lag) = .ok (some i)) : i.name = port := by
  obtain ⟨group, _, h⟩ := Outcome.bind_eq_ok.mp h
  exact name_of_ofEntry? h

namespace Roster
variable {r : Roster} {i : Interface} {name : String}

def interface? (r : Roster) (name : String) : Option Interface := r.interfaces.find? fun i => i.name = name

theorem find?_replace_self {is : List Interface} (h : i.name ∈ is.map (·.name)) :
    (replace i is).find? (fun j => j.name = i.name) = some i := by
  induction is with
  | nil => cases h
  | cons j js ih =>
    by_cases hj : j.name = i.name
    · simp [replace, hj]
    · have hjs : i.name ∈ js.map (·.name) := (List.mem_cons.mp h).resolve_left (Ne.symm hj)
      simpa [replace, hj] using ih hjs

theorem find?_replace_of_ne {is : List Interface} (h : i.name ≠ name) :
    (replace i is).find? (fun j => j.name = name) = is.find? fun j => j.name = name := by
  induction is with
  | nil => rfl
  | cons j js ih =>
    rw [replace, List.map_cons, ← replace, List.find?_cons, List.find?_cons, ih]
    by_cases hj : j.name = i.name
    · simp [hj, h]
    · simp [hj]

theorem interface?_put (r : Roster) (i : Interface) (name : String) :
    (r.put i).interface? name = if i.name = name then some i else r.interface? name := by
  unfold put interface?
  split
  next h =>
    by_cases hn : i.name = name
    · subst hn
      simpa using find?_replace_self h
    · simpa [hn] using find?_replace_of_ne hn
  next h =>
    rw [List.find?_append]
    by_cases hn : i.name = name
    · subst hn
      have hnone : (r.interfaces.find? fun j => j.name = i.name) = none := by
        refine List.find?_eq_none.mpr fun j hj hji => h ?_
        exact List.mem_map.mpr ⟨j, hj, by simpa using hji⟩
      simp [hnone]
    · simp [hn]

theorem interface?_add (r : Roster) (i : Interface) (name : String) :
    (r.add i).interface? name = (r.interface? name).or (if i.name = name then some i else none) := by
  unfold add interface?
  split
  next h =>
    by_cases hn : i.name = name
    · obtain ⟨j, hj, hji⟩ := List.mem_map.mp h
      have hsome : (r.interfaces.find? fun j => j.name = name).isSome = true :=
        List.find?_isSome.mpr ⟨j, hj, by simpa using hji.trans hn⟩
      rw [Option.or_of_isSome hsome]
    · simp [hn]
  next h =>
    rw [List.find?_append]
    by_cases hn : i.name = name <;> simp [hn]

/-- The last interface of a name counts that is put in. -/
theorem interface?_foldl_put (is : List Interface) (r : Roster) (name : String) :
    (is.foldl put r).interface? name = (is.reverse.find? fun i => i.name = name).or (r.interface? name) := by
  induction is generalizing r with
  | nil => simp
  | cons i is ih =>
    rw [List.foldl_cons, ih, interface?_put, List.reverse_cons, List.find?_append, Option.or_assoc]
    by_cases hn : i.name = name <;> simp [hn]

/-- The first interface of a name counts that is added. -/
theorem interface?_foldl_add (is : List Interface) (r : Roster) (name : String) :
    (is.foldl add r).interface? name = (r.interface? name).or (is.find? fun i => i.name = name) := by
  induction is generalizing r with
  | nil => simp
  | cons i is ih =>
    rw [List.foldl_cons, ih, interface?_add, Option.or_assoc, List.find?_cons]
    by_cases hn : i.name = name <;> simp [hn]

section Lag
variable {m : Membership} {lag : Value} {group : String} {is : List Interface}
  (hgroup : lag.requireText "tagnode" "bonding" = .ok group) (his : ofLag (some m) lag = .ok is)
include hgroup his

theorem mem_ofLag {j : Interface} : j ∈ is ↔
    ∃ x ∈ m.members group, Interface.memberPort? x.port (some lag) = .ok (some j) := by
  obtain ⟨g, hg, his⟩ := Outcome.bind_eq_ok.mp his
  cases hgroup.symm.trans hg
  obtain ⟨ports, hports, his⟩ := Outcome.bind_eq_ok.mp his
  cases his
  rw [List.mem_filterMap]
  simp only [id_eq, exists_eq_right]
  exact Outcome.mem_of_mapM hports (some j)

/-- A LAG entry is about its own ports. -/
theorem groupOf?_of_mem_ofLag (h : m.Exclusive) {j : Interface} (hj : j ∈ is) :
    m.groupOf? j.name = some group ∧ Interface.memberPort? j.name (some lag) = .ok (some j) := by
  obtain ⟨x, hx, hxj⟩ := (mem_ofLag hgroup his).mp hj
  rw [Interface.name_of_memberPort? hxj]
  exact ⟨(Membership.groupOf?_eq_some_iff h).mpr ⟨x, hx, rfl⟩, hxj⟩

/-- A LAG entry says of a port what its configuration makes of it, if the port is one of its own. -/
theorem find?_ofLag (h : m.Exclusive) : (is.reverse.find? fun i => i.name = name) = some i ↔
    m.groupOf? name = some group ∧ Interface.memberPort? name (some lag) = .ok (some i) := by
  have hof : ∀ j ∈ is, j.name = name → m.groupOf? name = some group ∧
      Interface.memberPort? name (some lag) = .ok (some j) := by
    rintro j hj rfl
    exact groupOf?_of_mem_ofLag hgroup his h hj
  constructor
  · intro hfind
    have hname : i.name = name := by simpa using List.find?_some hfind
    exact hof i (List.mem_reverse.mp (List.mem_of_find?_eq_some hfind)) hname
  · rintro ⟨hport, hi⟩
    obtain ⟨x, hx, rfl⟩ := (Membership.groupOf?_eq_some_iff h).mp hport
    have hin : i ∈ is.reverse := List.mem_reverse.mpr ((mem_ofLag hgroup his).mpr ⟨x, hx, hi⟩)
    obtain ⟨j, hj⟩ : ∃ j, (is.reverse.find? fun i => i.name = x.port) = some j := by
      refine Option.isSome_iff_exists.mp (List.find?_isSome.mpr ⟨i, hin, ?_⟩)
      simpa using Interface.name_of_memberPort? hi
    -- all interfaces of the name are made of the same entry
    have hjname : j.name = x.port := by simpa using List.find?_some hj
    have hjport := (hof j (List.mem_reverse.mp (List.mem_of_find?_eq_some hj)) hjname).2
    cases hi.symm.trans hjport
    exact hj

end Lag

section Congr
variable {a b : Membership} (ha : a.Exclusive) (hb : b.Exclusive) (hname : a.groupOf? name = b.groupOf? name)
include ha hb hname

theorem find?_ofLags_congr {lags : List Value} {is js : List (List Interface)}
    (his : lags.mapM (ofLag (some a)) = .ok is) (hjs : lags.mapM (ofLag (some b)) = .ok js) :
    (is.flatten.reverse.find? fun i => i.name = name) = js.flatten.reverse.find? fun i => i.name = name := by
  induction lags generalizing is js with
  | nil =>
    cases his
    cases hjs
    rfl
  | cons lag lags ih =>
    obtain ⟨i, is, hi, hrest, rfl⟩ := Outcome.mapM_cons_eq_ok.mp his
    obtain ⟨j, js, hj, hrest', rfl⟩ := Outcome.mapM_cons_eq_ok.mp hjs
    obtain ⟨group, hgroup, _⟩ := Outcome.bind_eq_ok.mp hi
    have hlag : (i.reverse.find? fun i => i.name = name) = j.reverse.find? fun i => i.name = name := by
      refine Option.ext fun k => ?_
      rw [find?_ofLag hgroup hi ha, find?_ofLag hgroup hj hb, hname]
    rw [List.flatten_cons, List.flatten_cons, List.reverse_append, List.reverse_append, List.find?_append,
      List.find?_append, ih hrest hrest', hlag]

/-- A port of the same LAG under two memberships is the same interface under both. -/
theorem interface?_ofTree_congr {tree : Value} {r s : Roster} (hr : ofTree tree (some a) = .ok r)
    (hs : ofTree tree (some b) = .ok s) : r.interface? name = s.interface? name := by
  obtain ⟨lags, hlags, hr⟩ := Outcome.bind_eq_ok.mp hr
  obtain ⟨ports, hports, hr⟩ := Outcome.bind_eq_ok.mp hr
  cases hr
  obtain ⟨lags', hlags', hs⟩ := Outcome.bind_eq_ok.mp hs
  obtain ⟨ports', hports', hs⟩ := Outcome.bind_eq_ok.mp hs
  cases hs
  cases hports.symm.trans hports'
  rw [interface?_foldl_add, interface?_foldl_add, interface?_foldl_put, interface?_foldl_put,
    find?_ofLags_congr ha hb hname hlags hlags']

end Congr
end Roster

namespace Snapshot
variable {tree : Value} {old new : Membership} {before after : Snapshot} {ifname : String}

theorem port?_ofParts (c : Catalogue) (r : Roster) (ifname : String) :
    (ofParts c r).port? ifname = (r.interface? ifname).map fun i => ⟨i, c.profileIndex i⟩ := by
  rw [port?, ofParts, List.find?_map, Roster.interface?]
  rfl

/-- A port whose LAG does not change is the same port under both memberships. -/
theorem port?_eq_of_not_mem_changedPorts (hold : old.Exclusive) (hnew : new.Exclusive)
    (hbefore : ofTree tree (some old) = .ok before) (hafter : ofTree tree (some new) = .ok after)
    (h : ifname ∉ Membership.changedPorts old new) : before.port? ifname = after.port? ifname := by
  obtain ⟨c, hc, hbefore⟩ := Outcome.bind_eq_ok.mp hbefore
  obtain ⟨r, hr, hbefore⟩ := Outcome.bind_eq_ok.mp hbefore
  cases hbefore
  obtain ⟨d, hd, hafter⟩ := Outcome.bind_eq_ok.mp hafter
  obtain ⟨q, hq, hafter⟩ := Outcome.bind_eq_ok.mp hafter
  cases hafter
  cases hc.symm.trans hd
  have hgroup : old.groupOf? ifname = new.groupOf? ifname := by
    by_contra hne
    exact h (Membership.mem_changedPorts.mpr hne)
  rw [port?_ofParts, port?_ofParts, Roster.interface?_ofTree_congr hold hnew hgroup hr hq]

/-- What interfaces are kept makes no difference to a policy. -/
theorem policy?_retain (s : Snapshot) (names : List String) (name : String) :
    (s.retain names).catalogue.policy? name = s.catalogue.policy? name := by
  have hdrop : ∀ (gone : List String) (o : Shared Policy String), (gone.foldl Shared.dropUser o).object = o.object := by
    intro gone
    induction gone with
    | nil =>
      intro o
      rfl
    | cons n gone ih =>
      intro o
      exact ih (o.dropUser n)
  simp only [Catalogue.policy?, retain, Table.get?_mapEntries, Option.map_map]
  exact congrArg (fun f => Option.map f (s.catalogue.policies.get? name)) (funext fun o => hdrop _ o)

end Snapshot
end QosControl
