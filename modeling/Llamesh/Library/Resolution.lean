import Llamesh.Library.FileSystem

/-!
# How walks compose

General support: a walk that arrives needs no more links, arrives at the end of
every first part of its path, and arrives in every tree with more nodes. A walk
that goes through a link stands at what the link leads to. What a walk stood at
is closed under going up.
-/

namespace FileSystem

universe u v

variable {ν : Type u} {α : Type v} [DecidableEq ν]

section

variable {t u : Tree ν α} {strict : Bool} {links : Nat} {cur p q r : List ν}
  {path rest target : List (Component ν)}

/-- A walk that arrives does the same with more links to follow. -/
theorem walk_add_of_reached (more : Nat)
    (h : (walk t strict links cur path).ending = .reached p) :
    walk t strict (links + more) cur path = walk t strict links cur path := by
  induction links, cur, path using walk_induction t strict with
  | nil links cur => simp
  | root links cur rest ih =>
    simp only [walk_root, Walk.ending_pass] at h ⊢
    rw [ih h]
  | stuck links cur c rest hc hstuck => simp [walk_stuck hstuck hc] at h
  | current links cur rest hdir ih =>
    simp only [walk_current hdir, Walk.ending_pass] at h ⊢
    rw [ih h]
  | parent links cur rest hdir ih =>
    simp only [walk_parent hdir, Walk.ending_pass] at h ⊢
    rw [ih h]
  | missing links cur name rest hdir hname => simp [walk_missing hdir hname] at h
  | exhausted cur name rest target hdir hname => simp [walk_link_zero hdir hname] at h
  | link links cur name rest target hdir hname ih =>
    rw [Nat.add_right_comm]
    simp only [walk_link_succ hdir hname, Walk.ending_look, Walk.ending_pass] at h ⊢
    rw [ih h]
  | node links cur name rest n hdir hname hnode ih =>
    simp only [walk_node hdir hname hnode, Walk.ending_look, Walk.ending_pass] at h ⊢
    rw [ih h]

/-- Walks along one path that arrive, arrive at one location. -/
theorem reached_unique {other : Nat} (hp : (walk t strict links cur path).ending = .reached p)
    (hq : (walk t strict other cur path).ending = .reached q) : p = q := by
  have hwide := walk_add_of_reached other hp
  have hother := walk_add_of_reached links hq
  rw [Nat.add_comm, hwide] at hother
  rw [hother, hq] at hp
  cases hp
  rfl

/-- A walk ends where it started or at a location it has stood at. -/
theorem mem_passed_of_reached (h : (walk t strict links cur path).ending = .reached p) :
    p = cur ∨ p ∈ (walk t strict links cur path).passed := by
  induction links, cur, path using walk_induction t strict with
  | nil links cur =>
    simp only [walk_nil, Ending.reached.injEq] at h
    exact .inl h.symm
  | root links cur rest ih =>
    simp only [walk_root, Walk.ending_pass, Walk.passed_pass, List.mem_cons] at h ⊢
    exact .inr (ih h)
  | stuck links cur c rest hc hstuck => simp [walk_stuck hstuck hc] at h
  | current links cur rest hdir ih =>
    simp only [walk_current hdir, Walk.ending_pass, Walk.passed_pass, List.mem_cons] at h ⊢
    exact .inr (ih h)
  | parent links cur rest hdir ih =>
    simp only [walk_parent hdir, Walk.ending_pass, Walk.passed_pass, List.mem_cons] at h ⊢
    exact .inr (ih h)
  | missing links cur name rest hdir hname => simp [walk_missing hdir hname] at h
  | exhausted cur name rest target hdir hname => simp [walk_link_zero hdir hname] at h
  | link links cur name rest target hdir hname ih =>
    simp only [walk_link_succ hdir hname, Walk.ending_look, Walk.ending_pass, Walk.passed_look,
      Walk.passed_pass, List.mem_cons] at h ⊢
    exact .inr (ih h)
  | node links cur name rest n hdir hname hnode ih =>
    simp only [walk_node hdir hname hnode, Walk.ending_look, Walk.ending_pass, Walk.passed_look,
      Walk.passed_pass, List.mem_cons] at h ⊢
    exact .inr (ih h)

/-- A walk that arrives has arrived at the end of the first part of its path, and goes on from
there. -/
theorem reached_append (h : (walk t strict links cur (path ++ rest)).ending = .reached q) :
    ∃ p left, (walk t strict links cur path).ending = .reached p ∧
      (walk t strict left p rest).ending = .reached q := by
  induction links, cur, path using walk_induction t strict with
  | nil links cur => exact ⟨cur, links, by rw [walk_nil], h⟩
  | root links cur rest ih =>
    simp only [List.cons_append, walk_root, Walk.ending_pass] at h ⊢
    exact ih h
  | stuck links cur c rest hc hstuck =>
    rw [List.cons_append, walk_stuck hstuck hc] at h
    cases h
  | current links cur rest hdir ih =>
    simp only [List.cons_append, walk_current hdir, Walk.ending_pass] at h ⊢
    exact ih h
  | parent links cur rest hdir ih =>
    simp only [List.cons_append, walk_parent hdir, Walk.ending_pass] at h ⊢
    exact ih h
  | missing links cur name rest hdir hname =>
    rw [List.cons_append, walk_missing hdir hname] at h
    cases h
  | exhausted cur name rest target hdir hname =>
    rw [List.cons_append, walk_link_zero hdir hname] at h
    cases h
  | link links cur name rest target hdir hname ih =>
    rw [List.append_assoc] at ih
    simp only [List.cons_append, walk_link_succ hdir hname, Walk.ending_look,
      Walk.ending_pass] at h ⊢
    exact ih h
  | node links cur name rest n hdir hname hnode ih =>
    simp only [List.cons_append, walk_node hdir hname hnode, Walk.ending_look,
      Walk.ending_pass] at h ⊢
    exact ih h

/-- A walk that arrives and has looked a link up has stood at what the link leads to. -/
theorem link_passed {name : ν} (hlink : t.lookup (r ++ [name]) = some (.link target))
    (hlooked : r ++ [name] ∈ (walk t strict links cur path).looked)
    (h : (walk t strict links cur path).ending = .reached q) :
    ∃ p left, (walk t strict left r target).ending = .reached p ∧
      p ∈ (walk t strict links cur path).passed := by
  induction links, cur, path using walk_induction t strict with
  | nil links cur => simp at hlooked
  | root links cur rest ih =>
    simp only [walk_root, Walk.looked_pass, Walk.ending_pass, Walk.passed_pass] at hlooked h ⊢
    obtain ⟨p, left, hp, hpassed⟩ := ih hlooked h
    exact ⟨p, left, hp, List.mem_cons_of_mem _ hpassed⟩
  | stuck links cur c rest hc hstuck => simp [walk_stuck hstuck hc] at h
  | current links cur rest hdir ih =>
    simp only [walk_current hdir, Walk.looked_pass, Walk.ending_pass,
      Walk.passed_pass] at hlooked h ⊢
    obtain ⟨p, left, hp, hpassed⟩ := ih hlooked h
    exact ⟨p, left, hp, List.mem_cons_of_mem _ hpassed⟩
  | parent links cur rest hdir ih =>
    simp only [walk_parent hdir, Walk.looked_pass, Walk.ending_pass,
      Walk.passed_pass] at hlooked h ⊢
    obtain ⟨p, left, hp, hpassed⟩ := ih hlooked h
    exact ⟨p, left, hp, List.mem_cons_of_mem _ hpassed⟩
  | missing links cur name rest hdir hname => simp [walk_missing hdir hname] at h
  | exhausted cur name rest target hdir hname => simp [walk_link_zero hdir hname] at h
  | link links cur name' rest target' hdir hname ih =>
    simp only [walk_link_succ hdir hname, Walk.looked_look, Walk.looked_pass, Walk.ending_look,
      Walk.ending_pass, Walk.passed_look, Walk.passed_pass, List.mem_cons] at hlooked h ⊢
    rcases hlooked with heq | hlooked
    · -- The target is walked from the directory of the link, before the rest of the path.
      obtain ⟨rfl, -⟩ := List.append_inj' heq rfl
      rw [heq, hname] at hlink
      obtain rfl : target' = target := by simpa using hlink
      obtain ⟨p, -, hp, -⟩ := reached_append h
      refine ⟨p, links, hp, (mem_passed_of_reached hp).imp_right fun hpassed => ?_⟩
      exact ((Included.refl t).walk id rest).1 p hpassed
    · obtain ⟨p, left, hp, hpassed⟩ := ih hlooked h
      exact ⟨p, left, hp, .inr hpassed⟩
  | node links cur name' rest n hdir hname hnode ih =>
    simp only [walk_node hdir hname hnode, Walk.looked_look, Walk.looked_pass, Walk.ending_look,
      Walk.ending_pass, Walk.passed_look, Walk.passed_pass, List.mem_cons] at hlooked h ⊢
    rcases hlooked with heq | hlooked
    · rw [heq, hname] at hlink
      exact absurd (Option.some.inj hlink) (hnode target)
    · obtain ⟨p, left, hp, hpassed⟩ := ih hlooked h
      exact ⟨p, left, hp, .inr hpassed⟩

/-- With each location a walk has stood at it has stood at all above, or started below them. -/
theorem ancestors_passed (h : p ∈ (walk t strict links cur path).passed) (hr : r <+: p) :
    r <+: cur ∨ r ∈ (walk t strict links cur path).passed := by
  induction links, cur, path using walk_induction t strict with
  | nil links cur => simp at h
  | root links cur rest ih =>
    simp only [walk_root, Walk.passed_pass, List.mem_cons] at h ⊢
    rcases h with rfl | h
    · exact .inr (.inl (List.prefix_nil.mp hr))
    · exact .inr ((ih h).imp_left List.prefix_nil.mp)
  | stuck links cur c rest hc hstuck => simp [walk_stuck hstuck hc] at h
  | current links cur rest hdir ih =>
    simp only [walk_current hdir, Walk.passed_pass, List.mem_cons] at h ⊢
    rcases h with rfl | h
    · exact .inl hr
    · exact (ih h).imp_right .inr
  | parent links cur rest hdir ih =>
    simp only [walk_parent hdir, Walk.passed_pass, List.mem_cons] at h ⊢
    rcases h with rfl | h
    · exact .inl (hr.trans cur.dropLast_prefix)
    · exact (ih h).imp (fun hup => hup.trans cur.dropLast_prefix) .inr
  | missing links cur name rest hdir hname => simp [walk_missing hdir hname] at h
  | exhausted cur name rest target hdir hname => simp [walk_link_zero hdir hname] at h
  | link links cur name rest target hdir hname ih =>
    simp only [walk_link_succ hdir hname, Walk.passed_look, Walk.passed_pass, List.mem_cons] at h ⊢
    rcases h with rfl | h
    · exact .inl hr
    · exact (ih h).imp_right .inr
  | node links cur name rest n hdir hname hnode ih =>
    simp only [walk_node hdir hname hnode, Walk.passed_look, Walk.passed_pass,
      List.mem_cons] at h ⊢
    have hhere : r <+: cur ++ [name] → r <+: cur ∨ r = cur ++ [name] := fun hr =>
      (List.prefix_concat_iff.mp hr).symm
    rcases h with rfl | h
    · exact (hhere hr).imp_right .inl
    · rcases ih h with hr | hpassed
      · exact (hhere hr).imp_right .inl
      · exact .inr (.inr hpassed)

end

/-! ### Paths with one more name -/

section

variable {t u : Tree ν α} {p q e : List ν} {path : List (Component ν)} {name : ν}

/-- A path that leads somewhere leads its last name from a directory: to a node of that name, or to
what the link of that name leads to. -/
theorem canonicalize_concat (h : canonicalize t (path ++ [.normal name]) = some p) :
    ∃ d, canonicalize t path = some d ∧ isDir t d = true ∧
      (p = d ++ [name] ∧ IsPlace t p ∨
        ∃ target left, t.lookup (d ++ [name]) = some (.link target) ∧
          (walk t true left d target).ending = .reached p) := by
  obtain ⟨d, left, hd, hlast⟩ := reached_append (canonicalize_eq_some.mp h)
  refine ⟨d, canonicalize_eq_some.mpr hd, ?_⟩
  cases hdir : isDir t d with
  | false =>
    have hstuck : (true && !isDir t d) = true := by simp [hdir]
    have hname : Component.normal name ≠ .root := by simp
    rw [walk_stuck hstuck hname] at hlast
    cases hlast
  | true =>
    have hgoing : (true && !isDir t d) = false := by simp [hdir]
    refine ⟨rfl, ?_⟩
    cases hname : t.lookup (d ++ [name]) with
    | none => simp [walk_missing hgoing hname] at hlast
    | some node =>
      by_cases hlink : ∃ target, node = .link target
      · obtain ⟨target, rfl⟩ := hlink
        cases left with
        | zero => simp [walk_link_zero hgoing hname] at hlast
        | succ left =>
          rw [walk_link_succ hgoing hname, List.append_nil] at hlast
          exact .inr ⟨target, left, rfl, hlast⟩
      · have hnode : ∀ target, node ≠ .link target := fun target heq => hlink ⟨target, heq⟩
        rw [walk_node hgoing hname hnode] at hlast
        obtain rfl : d ++ [name] = p := by simpa using hlast
        exact .inl ⟨rfl, node, hname, hnode⟩

/-- The location of the last name. -/
theorem entry_concat {d : List ν} (hd : canonicalize t path = some d) (hdir : isDir t d = true) :
    entry t (path ++ [.normal name]) = some (d ++ [name]) := by
  simp [entry, hd, hdir]

/-- A path that arrives does not come past an entry that leads to where it does not stand. -/
theorem entry_notMem_looked {other : List (Component ν)}
    (hp : canonicalize t (path ++ [.normal name]) = some p)
    (he : entry t (path ++ [.normal name]) = some e)
    (hother : canonicalize t other = some q) (hout : p ∉ (resolve t other).passed) :
    e ∉ (resolve t other).looked := by
  intro hlooked
  obtain ⟨d, hd, hdir, hplace⟩ := canonicalize_concat hp
  obtain rfl := Option.some.inj ((entry_concat hd hdir).symm.trans he)
  rcases hplace with ⟨rfl, hplace⟩ | ⟨target, left, hlink, hreached⟩
  · exact hout (passed_of_place hlooked hplace)
  · -- A link on the way leads to where the resolution went on.
    obtain ⟨r, right, hr, hpassed⟩ := link_passed hlink hlooked (canonicalize_eq_some.mp hother)
    obtain rfl := reached_unique hreached hr
    exact hout hpassed

/-- Entries of one directory are not below each other. -/
theorem name_eq_of_entry {other : ν} (hp : entry t (path ++ [.normal name]) = some p)
    (hq : entry t (path ++ [.normal other]) = some q) (h : p <+: q) : name = other := by
  simp only [entry, List.getLast?_concat, List.dropLast_concat, Option.bind_eq_some_iff] at hp hq
  obtain ⟨d, hd, hp⟩ := hp
  obtain ⟨d', hd', hq⟩ := hq
  obtain rfl := Option.some.inj (hd.symm.trans hd')
  split at hp
  · next hdir =>
    rw [if_pos hdir] at hq
    obtain rfl := Option.some.inj hp
    obtain rfl := Option.some.inj hq
    have heq := h.eq_of_length (by simp)
    simpa using heq
  · cases hp

/-- A path leads to a directory in trees that agree on what it looks up. -/
theorem isDirectory_congr (h : ∀ q ∈ (resolve t path).looked, u.lookup q = t.lookup q) :
    isDirectory u path = isDirectory t path := by
  unfold isDirectory
  rw [canonicalize_congr h]
  cases hp : canonicalize t path with
  | none => rfl
  | some p =>
    rcases place_of_passed (.inr (canonicalize_eq_some.mp hp)) with hnil | ⟨hlooked, -⟩
    · rw [List.prefix_nil.mp hnil]
      rfl
    · simp only [Option.any_some, isDir, h p hlooked]

/-- A first part of a path looks nothing else up. -/
theorem looked_append {more : List (Component ν)} (h : q ∈ (resolve t path).looked) :
    q ∈ (resolve t (path ++ more)).looked :=
  ((Included.refl t).walk id more).2 q h

/-! ### Trees with fewer nodes -/

/-- What is found with fewer nodes is found with more. -/
theorem Included.canonicalize (h : Included u t) (hp : canonicalize u path = some p) :
    FileSystem.canonicalize t path = some p := by
  have hreached := canonicalize_eq_some.mp hp
  refine (canonicalize_congr fun q hq => ?_).trans hp
  obtain ⟨n, hn⟩ := exists_of_reached hreached q hq
  rw [hn, h q n hn]

/-- A location that is looked up on the way to somewhere and is a directory stays one. -/
theorem Included.isDirectory (h : Included u t) (hp : isDirectory u path = true) :
    FileSystem.isDirectory t path = true := by
  obtain ⟨p, hp, hdir⟩ := (Option.any_eq_true _ _).mp hp
  exact (Option.any_eq_true _ _).mpr ⟨p, h.canonicalize hp, h.isDir hdir⟩

/-- An entry of a part is one of the whole. -/
theorem Included.entry (h : Included u t) (he : entry u path = some e) :
    FileSystem.entry t path = some e := by
  unfold FileSystem.entry at he ⊢
  split at he
  · obtain ⟨d, hd, he⟩ := Option.bind_eq_some_iff.mp he
    split at he
    · next hdir =>
      rw [h.canonicalize hd, Option.bind_some, if_pos (h.isDir hdir)]
      exact he
    · cases he
  · cases he

/-! ### Names in a directory -/

/-- The names in a directory. -/
def namesIn (t : Tree ν α) (d : List ν) : List ν :=
  t.keys.filterMap fun p => if p.dropLast = d then p.getLast? else none

/-- The names in a directory are those that are looked up in it. -/
theorem mem_namesIn {d : List ν} : name ∈ namesIn t d ↔ ∃ n, t.lookup (d ++ [name]) = some n := by
  have hkeys : (∃ n, t.lookup (d ++ [name]) = some n) ↔ d ++ [name] ∈ t.keys := by
    rw [← Option.isSome_iff_exists, AList.lookup_isSome]
    rfl
  rw [hkeys, namesIn, List.mem_filterMap]
  constructor
  · rintro ⟨p, hp, hname⟩
    split at hname
    · next hd =>
      obtain ⟨init, rfl⟩ := List.getLast?_eq_some_iff.mp hname
      rw [List.dropLast_concat] at hd
      exact hd ▸ hp
    · cases hname
  · intro hkey
    exact ⟨d ++ [name], hkey, by simp⟩

/-- A directory lists a name once. -/
theorem nodup_namesIn (d : List ν) : (namesIn t d).Nodup := by
  refine t.keys_nodup.filterMap ?_
  intro p q name hp hq
  split at hp
  · next hpd =>
    split at hq
    · next hqd =>
      obtain ⟨a, rfl⟩ := List.getLast?_eq_some_iff.mp hp
      obtain ⟨b, rfl⟩ := List.getLast?_eq_some_iff.mp hq
      rw [List.dropLast_concat] at hpd hqd
      rw [hpd, hqd]
    · cases hq
  · cases hp

/-! ### Trees of directories -/

/-- Every node is in a directory. -/
def Sound (t : Tree ν α) : Prop := ∀ d name n, t.lookup (d ++ [name]) = some n → isDir t d = true

/-- The check of a given tree. -/
theorem sound_of_all (h : (t.keys.all fun p => isDir t p.dropLast) = true) : Sound t := by
  intro d name n hn
  have hkey : d ++ [name] ∈ t.keys := Table.mem_keys_of_lookup hn
  simpa using List.all_eq_true.mp h _ hkey

/-- A directory other than the root is a node. -/
theorem lookup_of_isDir (hp : p ≠ []) (h : isDir t p = true) : t.lookup p = some .dir := by
  unfold isDir at h
  split at h
  · exact absurd rfl hp
  · next hdir => exact hdir
  · cases h

/-- There is nothing below a link. -/
theorem Sound.below_link {target : List (Component ν)} (h : Sound t) (hp : p ≠ [])
    (hlink : t.lookup p = some (.link target)) (hq : p <+: q) (hne : q ≠ p) :
    t.lookup q = none := by
  obtain ⟨below, rfl⟩ := hq
  induction below using List.reverseRecOn with
  | nil => simp at hne
  | append_singleton below name ih =>
    rw [← List.append_assoc]
    cases hnode : t.lookup (p ++ below ++ [name]) with
    | none => rfl
    | some n =>
      have hdir := lookup_of_isDir (List.append_ne_nil_of_left_ne_nil hp below) (h _ _ _ hnode)
      by_cases hbelow : p ++ below = p
      · rw [hbelow, hlink] at hdir
        cases hdir
      · rw [ih hbelow] at hdir
        cases hdir

end

end FileSystem
