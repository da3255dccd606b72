import Llamesh.Library.Table
import Mathlib.Data.List.Infix

/-!
# A tree of files with symbolic links

General support: directories, files and symbolic links at physical locations, and
the walk that resolves a path the way the kernel does, component by component and
with a bounded number of links. Each walk records the locations it looked up and
the ones it stood at. What it looked up decides it: a change elsewhere leaves the
walk as it was.
-/

namespace FileSystem

universe u v

/-- A component of a path. -/
inductive Component (ν : Type u) where
  | root
  | current
  | parent
  | normal (name : ν)
  deriving DecidableEq, Repr

/-- What is at a location. -/
inductive Node (ν : Type u) (α : Type v) where
  | dir
  | file (contents : α)
  | link (target : List (Component ν))
  deriving DecidableEq, Repr

/-- The nodes by location: the names from the root on, without links. The root itself is always a
directory. -/
abbrev Tree (ν : Type u) (α : Type v) := Table (List ν) (Node ν α)

/-- How a walk ends: at a location, where a component is missing, which is the last one when there
is a location for it, or with another error. -/
inductive Ending (ν : Type u) where
  | reached (p : List ν)
  | missing (p : Option (List ν))
  | failed
  deriving DecidableEq, Repr

/-- A walk: where it stood after each component, what it looked up, and how it ended. -/
structure Walk (ν : Type u) where
  passed : List (List ν)
  looked : List (List ν)
  ending : Ending ν
  deriving DecidableEq, Repr

namespace Walk

variable {ν : Type u}

/-- A walk that ends with an error. -/
def failure : Walk ν := ⟨[], [], .failed⟩

/-- The walk stands at a location first. -/
def pass (p : List ν) (w : Walk ν) : Walk ν := { w with passed := p :: w.passed }

/-- The walk looks a location up first. -/
def look (p : List ν) (w : Walk ν) : Walk ν := { w with looked := p :: w.looked }

/-- A failure passes through nothing. -/
@[simp] theorem passed_failure : (failure : Walk ν).passed = [] := rfl

/-- A failure looks at nothing. -/
@[simp] theorem looked_failure : (failure : Walk ν).looked = [] := rfl

/-- A failure ends in one. -/
@[simp] theorem ending_failure : (failure : Walk ν).ending = .failed := rfl

variable (p : List ν) (w : Walk ν)

/-- What a walk passes through, with one directory more. -/
@[simp] theorem passed_pass : (w.pass p).passed = p :: w.passed := rfl

/-- Passing looks at nothing. -/
@[simp] theorem looked_pass : (w.pass p).looked = w.looked := rfl

/-- Passing leaves the ending. -/
@[simp] theorem ending_pass : (w.pass p).ending = w.ending := rfl

/-- Looking passes through nothing. -/
@[simp] theorem passed_look : (w.look p).passed = w.passed := rfl

/-- What a walk looks at, with one entry more. -/
@[simp] theorem looked_look : (w.look p).looked = p :: w.looked := rfl

/-- Looking leaves the ending. -/
@[simp] theorem ending_look : (w.look p).ending = w.ending := rfl

end Walk

variable {ν : Type u} {α : Type v} [DecidableEq ν]

/-- A directory is at the location. -/
def isDir (t : Tree ν α) (p : List ν) : Bool :=
  match p, t.lookup p with
  | [], _ => true
  | _, some .dir => true
  | _, _ => false

/-- Walk on from a location until the first link, which `follow` takes over with the rest of the
path after its target. A strict walk goes on from directories only, as the kernel does. -/
def segment (t : Tree ν α) (strict : Bool) (follow : List ν → List (Component ν) → Walk ν) :
    List ν → List (Component ν) → Walk ν
  | cur, [] => ⟨[], [], .reached cur⟩
  | _, .root :: rest => (segment t strict follow [] rest).pass []
  | cur, .current :: rest =>
    if strict && !isDir t cur then .failure else (segment t strict follow cur rest).pass cur
  | cur, .parent :: rest =>
    if strict && !isDir t cur then .failure
    else (segment t strict follow cur.dropLast rest).pass cur.dropLast
  | cur, .normal name :: rest =>
    if strict && !isDir t cur then .failure
    else
      match t.lookup (cur ++ [name]) with
      | none =>
        ⟨[], [cur ++ [name]], .missing (if rest.isEmpty then some (cur ++ [name]) else none)⟩
      | some (.link target) => (follow cur (target ++ rest)).look (cur ++ [name])
      | some _ =>
        ((segment t strict follow (cur ++ [name]) rest).pass (cur ++ [name])).look (cur ++ [name])

/-- Walk on from a location, following at most `links` links. -/
def walk (t : Tree ν α) (strict : Bool) : Nat → List ν → List (Component ν) → Walk ν
  | 0 => segment t strict fun _ _ => .failure
  | links + 1 => segment t strict fun cur path => (walk t strict links cur path).pass cur

/-! ### The equations of a walk -/

section

attribute [local simp] walk segment

variable {t : Tree ν α} {strict : Bool} {links : Nat} {cur : List ν} {name : ν}
  {rest target : List (Component ν)}

/-- A walk with no components left has reached its place. -/
@[simp] theorem walk_nil : walk t strict links cur [] = ⟨[], [], .reached cur⟩ := by
  cases links <;> rfl

/-- A root starts over. -/
@[simp] theorem walk_root :
    walk t strict links cur (.root :: rest) = (walk t strict links [] rest).pass [] := by
  cases links <;> rfl

/-- `.` stays. -/
theorem walk_current (h : (strict && !isDir t cur) = false) :
    walk t strict links cur (.current :: rest) = (walk t strict links cur rest).pass cur := by
  cases links <;> simp [h]

/-- `..` goes up. -/
theorem walk_parent (h : (strict && !isDir t cur) = false) :
    walk t strict links cur (.parent :: rest) =
      (walk t strict links cur.dropLast rest).pass cur.dropLast := by
  cases links <;> simp [h]

/-- A name that is not there ends the walk. -/
theorem walk_missing (h : (strict && !isDir t cur) = false)
    (hname : t.lookup (cur ++ [name]) = none) :
    walk t strict links cur (.normal name :: rest) =
      ⟨[], [cur ++ [name]], .missing (if rest.isEmpty then some (cur ++ [name]) else none)⟩ := by
  cases links <;> simp [h, hname]

/-- One link too many fails. -/
theorem walk_link_zero (h : (strict && !isDir t cur) = false)
    (hname : t.lookup (cur ++ [name]) = some (.link target)) :
    walk t strict 0 cur (.normal name :: rest) = Walk.failure.look (cur ++ [name]) := by
  simp [h, hname]

/-- A link is replaced by its target. -/
theorem walk_link_succ (h : (strict && !isDir t cur) = false)
    (hname : t.lookup (cur ++ [name]) = some (.link target)) :
    walk t strict (links + 1) cur (.normal name :: rest) =
      ((walk t strict links cur (target ++ rest)).pass cur).look (cur ++ [name]) := by
  simp [h, hname]

/-- A file or a directory is entered. -/
theorem walk_node {node : Node ν α} (h : (strict && !isDir t cur) = false)
    (hname : t.lookup (cur ++ [name]) = some node) (hnode : ∀ target, node ≠ .link target) :
    walk t strict links cur (.normal name :: rest) =
      ((walk t strict links (cur ++ [name]) rest).pass (cur ++ [name])).look (cur ++ [name]) := by
  cases node with
  | link target => exact absurd rfl (hnode target)
  | dir => cases links <;> simp [h, hname]
  | file contents => cases links <;> simp [h, hname]

/-- A strict walk does not go on from a location that is not a directory. -/
theorem walk_stuck {c : Component ν} (h : (strict && !isDir t cur) = true) (hc : c ≠ .root) :
    walk t strict links cur (c :: rest) = .failure := by
  cases c with
  | root => exact absurd rfl hc
  | current => cases links <;> simp [h]
  | parent => cases links <;> simp [h]
  | normal name => cases links <;> simp [h]

end

/-- Induction along a walk: on the number of links, and on the path between two links. -/
theorem walk_induction (t : Tree ν α) (strict : Bool)
    {motive : Nat → List ν → List (Component ν) → Prop}
    (nil : ∀ links cur, motive links cur [])
    (root : ∀ links cur rest, motive links [] rest → motive links cur (.root :: rest))
    (stuck : ∀ links cur c rest, c ≠ .root → (strict && !isDir t cur) = true →
      motive links cur (c :: rest))
    (current : ∀ links cur rest, (strict && !isDir t cur) = false → motive links cur rest →
      motive links cur (.current :: rest))
    (parent : ∀ links cur rest, (strict && !isDir t cur) = false →
      motive links cur.dropLast rest → motive links cur (.parent :: rest))
    (missing : ∀ links cur name rest, (strict && !isDir t cur) = false →
      t.lookup (cur ++ [name]) = none → motive links cur (.normal name :: rest))
    (exhausted : ∀ cur name rest target, (strict && !isDir t cur) = false →
      t.lookup (cur ++ [name]) = some (.link target) → motive 0 cur (.normal name :: rest))
    (link : ∀ links cur name rest target, (strict && !isDir t cur) = false →
      t.lookup (cur ++ [name]) = some (.link target) → motive links cur (target ++ rest) →
      motive (links + 1) cur (.normal name :: rest))
    (node : ∀ links cur name rest n, (strict && !isDir t cur) = false →
      t.lookup (cur ++ [name]) = some n → (∀ target, n ≠ .link target) →
      motive links (cur ++ [name]) rest → motive links cur (.normal name :: rest))
    (links : Nat) (cur : List ν) (path : List (Component ν)) : motive links cur path := by
  -- Between two links the induction is on the path; `hlink` takes over at the next link.
  have segment : ∀ links,
      (∀ cur name rest target, (strict && !isDir t cur) = false →
        t.lookup (cur ++ [name]) = some (.link target) → motive links cur (.normal name :: rest)) →
      ∀ path cur, motive links cur path := by
    intro links hlink path
    induction path with
    | nil => exact nil links
    | cons c rest ih =>
      intro cur
      by_cases hroot : c = .root
      · subst hroot
        exact root links cur rest (ih [])
      cases hstuck : strict && !isDir t cur with
      | true => exact stuck links cur c rest hroot hstuck
      | false =>
        cases c with
        | root => exact absurd rfl hroot
        | current => exact current links cur rest hstuck (ih cur)
        | parent => exact parent links cur rest hstuck (ih cur.dropLast)
        | normal name =>
          cases hname : t.lookup (cur ++ [name]) with
          | none => exact missing links cur name rest hstuck hname
          | some n =>
            cases n with
            | link target => exact hlink cur name rest target hstuck hname
            | dir => exact node links cur name rest .dir hstuck hname nofun (ih _)
            | file contents => exact node links cur name rest _ hstuck hname nofun (ih _)
  induction links generalizing cur path with
  | zero => exact segment 0 exhausted path cur
  | succ links ih =>
    exact segment (links + 1)
      (fun cur name rest target h hname =>
        link links cur name rest target h hname (ih cur (target ++ rest))) path cur

/-! ### What a walk looks up and where it stands -/

section

variable {t u : Tree ν α} {strict : Bool} {links : Nat} {cur p r : List ν}
  {path : List (Component ν)}

/-- A walk that looks below a location has looked that location up, or started below it. -/
theorem looked_of_prefix (h : p ∈ (walk t strict links cur path).looked) (hr : r <+: p) :
    r <+: cur ∨ r ∈ (walk t strict links cur path).looked := by
  induction links, cur, path using walk_induction t strict with
  | nil links cur => simp at h
  | root links cur rest ih =>
    simp only [walk_root, Walk.looked_pass] at h ⊢
    refine (ih h).imp_left fun hnil => ?_
    rw [List.prefix_nil.mp hnil]
    exact List.nil_prefix
  | stuck links cur c rest hc hstuck => simp [walk_stuck hstuck hc] at h
  | current links cur rest hdir ih =>
    simp only [walk_current hdir, Walk.looked_pass] at h ⊢
    exact ih h
  | parent links cur rest hdir ih =>
    simp only [walk_parent hdir, Walk.looked_pass] at h ⊢
    exact (ih h).imp_left fun hup => hup.trans cur.dropLast_prefix
  | missing links cur name rest hdir hname =>
    simp only [walk_missing hdir hname, List.mem_singleton] at h ⊢
    subst h
    exact (List.prefix_concat_iff.mp hr).symm
  | exhausted cur name rest target hdir hname =>
    simp only [walk_link_zero hdir hname, Walk.looked_look, Walk.looked_failure,
      List.mem_singleton] at h ⊢
    subst h
    exact (List.prefix_concat_iff.mp hr).symm
  | link links cur name rest target hdir hname ih =>
    simp only [walk_link_succ hdir hname, Walk.looked_look, Walk.looked_pass, List.mem_cons] at h ⊢
    rcases h with rfl | h
    · exact (List.prefix_concat_iff.mp hr).symm.imp_right .inl
    · exact (ih h).imp_right .inr
  | node links cur name rest n hdir hname hnode ih =>
    simp only [walk_node hdir hname hnode, Walk.looked_look, Walk.looked_pass, List.mem_cons]
      at h ⊢
    have hhere : r <+: cur ++ [name] → r <+: cur ∨ r = cur ++ [name] := fun hr =>
      (List.prefix_concat_iff.mp hr).symm
    rcases h with rfl | h
    · exact (hhere hr).imp_right .inl
    · rcases ih h with hr | hlooked
      · exact (hhere hr).imp_right .inl
      · exact .inr (.inr hlooked)

/-- What a walk looks up and what it starts from decides it. -/
theorem walk_congr (hcur : ∀ q, q <+: cur → q ≠ [] → u.lookup q = t.lookup q)
    (h : ∀ q ∈ (walk t strict links cur path).looked, u.lookup q = t.lookup q) :
    walk u strict links cur path = walk t strict links cur path := by
  have hisDir : ∀ {cur}, (∀ q, q <+: cur → q ≠ [] → u.lookup q = t.lookup q) →
      isDir u cur = isDir t cur := by
    intro cur hcur
    cases cur with
    | nil => rfl
    | cons name names => simp only [isDir, hcur _ List.prefix_rfl nofun]
  induction links, cur, path using walk_induction t strict with
  | nil links cur => simp
  | root links cur rest ih =>
    simp only [walk_root, Walk.looked_pass] at h ⊢
    rw [ih (fun q hq hne => absurd (List.prefix_nil.mp hq) hne) h]
  | stuck links cur c rest hc hstuck =>
    rw [walk_stuck hstuck hc, walk_stuck (by rw [hisDir hcur, hstuck]) hc]
  | current links cur rest hdir ih =>
    simp only [walk_current hdir, Walk.looked_pass] at h ⊢
    rw [walk_current (by rw [hisDir hcur, hdir]), ih hcur h]
  | parent links cur rest hdir ih =>
    simp only [walk_parent hdir, Walk.looked_pass] at h ⊢
    rw [walk_parent (by rw [hisDir hcur, hdir]),
      ih (fun q hq => hcur q (hq.trans cur.dropLast_prefix)) h]
  | missing links cur name rest hdir hname =>
    simp only [walk_missing hdir hname, List.mem_singleton, forall_eq] at h ⊢
    rw [walk_missing (by rw [hisDir hcur, hdir]) (h.trans hname)]
  | exhausted cur name rest target hdir hname =>
    simp only [walk_link_zero hdir hname, Walk.looked_look, Walk.looked_failure,
      List.mem_singleton, forall_eq] at h ⊢
    rw [walk_link_zero (by rw [hisDir hcur, hdir]) (h.trans hname)]
  | link links cur name rest target hdir hname ih =>
    simp only [walk_link_succ hdir hname, Walk.looked_look, Walk.looked_pass, List.forall_mem_cons]
      at h ⊢
    rw [walk_link_succ (by rw [hisDir hcur, hdir]) (h.1.trans hname), ih hcur h.2]
  | node links cur name rest n hdir hname hnode ih =>
    simp only [walk_node hdir hname hnode, Walk.looked_look, Walk.looked_pass,
      List.forall_mem_cons] at h ⊢
    have hnext : ∀ q, q <+: cur ++ [name] → q ≠ [] → u.lookup q = t.lookup q := by
      intro q hq
      rcases List.prefix_concat_iff.mp hq with rfl | hq
      · exact fun _ => h.1
      · exact hcur q hq
    rw [walk_node (by rw [hisDir hcur, hdir]) (h.1.trans hname) hnode, ih hnext h.2]

/-- Everything a walk looks up on its way to a location is there. -/
theorem exists_of_reached (h : (walk t strict links cur path).ending = .reached p) :
    ∀ q ∈ (walk t strict links cur path).looked, ∃ n, t.lookup q = some n := by
  induction links, cur, path using walk_induction t strict with
  | nil links cur => simp
  | root links cur rest ih =>
    simp only [walk_root, Walk.looked_pass, Walk.ending_pass] at h ⊢
    exact ih h
  | stuck links cur c rest hc hstuck => simp [walk_stuck hstuck hc] at h
  | current links cur rest hdir ih =>
    simp only [walk_current hdir, Walk.looked_pass, Walk.ending_pass] at h ⊢
    exact ih h
  | parent links cur rest hdir ih =>
    simp only [walk_parent hdir, Walk.looked_pass, Walk.ending_pass] at h ⊢
    exact ih h
  | missing links cur name rest hdir hname => simp [walk_missing hdir hname] at h
  | exhausted cur name rest target hdir hname => simp [walk_link_zero hdir hname] at h
  | link links cur name rest target hdir hname ih =>
    simp only [walk_link_succ hdir hname, Walk.looked_look, Walk.looked_pass, Walk.ending_look,
      Walk.ending_pass, List.forall_mem_cons] at h ⊢
    exact ⟨⟨_, hname⟩, ih h⟩
  | node links cur name rest n hdir hname hnode ih =>
    simp only [walk_node hdir hname hnode, Walk.looked_look, Walk.looked_pass, Walk.ending_look,
      Walk.ending_pass, List.forall_mem_cons] at h ⊢
    exact ⟨⟨n, hname⟩, ih h⟩

/-- A link is not a place to stand at. -/
def IsPlace (t : Tree ν α) (p : List ν) : Prop :=
  ∃ n, t.lookup p = some n ∧ ∀ target, n ≠ .link target

/-- A walk stands, and ends, only where it started, above that, or at a place it looked up. -/
theorem place_of_passed
    (h : p ∈ (walk t strict links cur path).passed ∨
      (walk t strict links cur path).ending = .reached p) :
    p <+: cur ∨ p ∈ (walk t strict links cur path).looked ∧ IsPlace t p := by
  induction links, cur, path using walk_induction t strict with
  | nil links cur =>
    simp only [walk_nil, List.not_mem_nil, Ending.reached.injEq, false_or] at h
    exact .inl (h ▸ List.prefix_rfl)
  | root links cur rest ih =>
    simp only [walk_root, Walk.passed_pass, Walk.looked_pass, Walk.ending_pass, List.mem_cons,
      or_assoc] at h ⊢
    have hnil : p <+: [] → p <+: cur := fun hp => by
      rw [List.prefix_nil.mp hp]
      exact List.nil_prefix
    rcases h with rfl | h
    · exact .inl List.nil_prefix
    · exact (ih h).imp_left hnil
  | stuck links cur c rest hc hstuck => simp [walk_stuck hstuck hc] at h
  | current links cur rest hdir ih =>
    simp only [walk_current hdir, Walk.passed_pass, Walk.looked_pass, Walk.ending_pass,
      List.mem_cons, or_assoc] at h ⊢
    rcases h with rfl | h
    · exact .inl List.prefix_rfl
    · exact ih h
  | parent links cur rest hdir ih =>
    simp only [walk_parent hdir, Walk.passed_pass, Walk.looked_pass, Walk.ending_pass,
      List.mem_cons, or_assoc] at h ⊢
    rcases h with rfl | h
    · exact .inl cur.dropLast_prefix
    · exact (ih h).imp_left fun hup => hup.trans cur.dropLast_prefix
  | missing links cur name rest hdir hname => simp [walk_missing hdir hname] at h
  | exhausted cur name rest target hdir hname => simp [walk_link_zero hdir hname] at h
  | link links cur name rest target hdir hname ih =>
    simp only [walk_link_succ hdir hname, Walk.passed_look, Walk.passed_pass, Walk.looked_look,
      Walk.looked_pass, Walk.ending_look, Walk.ending_pass, List.mem_cons, or_assoc] at h ⊢
    rcases h with rfl | h
    · exact .inl List.prefix_rfl
    · exact (ih h).imp_right fun ⟨hlooked, hplace⟩ => ⟨.inr hlooked, hplace⟩
  | node links cur name rest n hdir hname hnode ih =>
    simp only [walk_node hdir hname hnode, Walk.passed_look, Walk.passed_pass, Walk.looked_look,
      Walk.looked_pass, Walk.ending_look, Walk.ending_pass, List.mem_cons, or_assoc] at h ⊢
    rcases h with rfl | h
    · exact .inr ⟨.inl rfl, n, hname, hnode⟩
    · rcases ih h with hp | ⟨hlooked, hplace⟩
      · rcases List.prefix_concat_iff.mp hp with rfl | hp
        · exact .inr ⟨.inl rfl, n, hname, hnode⟩
        · exact .inl hp
      · exact .inr ⟨.inr hlooked, hplace⟩

/-- A walk stands at every place it looks up. -/
theorem passed_of_place (h : p ∈ (walk t strict links cur path).looked) (hp : IsPlace t p) :
    p ∈ (walk t strict links cur path).passed := by
  obtain ⟨node, hnode, hplace⟩ := hp
  induction links, cur, path using walk_induction t strict with
  | nil links cur => simp at h
  | root links cur rest ih =>
    simp only [walk_root, Walk.passed_pass, Walk.looked_pass, List.mem_cons] at h ⊢
    exact .inr (ih h)
  | stuck links cur c rest hc hstuck => simp [walk_stuck hstuck hc] at h
  | current links cur rest hdir ih =>
    simp only [walk_current hdir, Walk.passed_pass, Walk.looked_pass, List.mem_cons] at h ⊢
    exact .inr (ih h)
  | parent links cur rest hdir ih =>
    simp only [walk_parent hdir, Walk.passed_pass, Walk.looked_pass, List.mem_cons] at h ⊢
    exact .inr (ih h)
  | missing links cur name rest hdir hname =>
    simp only [walk_missing hdir hname, List.mem_singleton] at h
    subst h
    rw [hname] at hnode
    cases hnode
  | exhausted cur name rest target hdir hname =>
    simp only [walk_link_zero hdir hname, Walk.looked_look, Walk.looked_failure,
      List.mem_singleton] at h
    subst h
    rw [hname] at hnode
    exact absurd (Option.some.inj hnode).symm (hplace target)
  | link links cur name rest target hdir hname ih =>
    simp only [walk_link_succ hdir hname, Walk.passed_look, Walk.passed_pass, Walk.looked_look,
      Walk.looked_pass, List.mem_cons] at h ⊢
    rcases h with rfl | h
    · rw [hname] at hnode
      exact absurd (Option.some.inj hnode).symm (hplace target)
    · exact .inr (ih h)
  | node links cur name rest n hdir hname hn ih =>
    simp only [walk_node hdir hname hn, Walk.passed_look, Walk.passed_pass, Walk.looked_look,
      Walk.looked_pass, List.mem_cons] at h ⊢
    exact h.imp_right ih

/-- A walk does not stand at a location that it did not look up, the root apart. -/
theorem notMem_passed (hp : p ≠ []) (h : p ∉ (walk t strict links [] path).looked) :
    p ∉ (walk t strict links [] path).passed := by
  intro hpassed
  rcases place_of_passed (.inl hpassed) with hnil | ⟨hlooked, -⟩
  · exact hp (List.prefix_nil.mp hnil)
  · exact h hlooked

/-- A change at and below a location that a walk did not look up leaves the walk as it was. -/
theorem walk_eq_of_outside (hr : r ≠ []) (hlooked : r ∉ (walk t strict links [] path).looked)
    (h : ∀ q, ¬ r <+: q → u.lookup q = t.lookup q) :
    walk u strict links [] path = walk t strict links [] path := by
  refine walk_congr (fun q hq hne => absurd (List.prefix_nil.mp hq) hne) fun q hq => h q ?_
  intro hrq
  rcases looked_of_prefix hq hrq with hnil | hmem
  · exact hr (List.prefix_nil.mp hnil)
  · exact hlooked hmem

end

/-! ### Trees with more nodes -/

/-- Every node of `u` is in `t`. -/
def Included (u t : Tree ν α) : Prop := ∀ q n, u.lookup q = some n → t.lookup q = some n

section

variable {t u : Tree ν α} {strict loose : Bool} {links : Nat} {cur p r : List ν}
  {path : List (Component ν)}

/-- A tree is a part of itself. -/
theorem Included.refl (t : Tree ν α) : Included t t := fun _ _ h => h

/-- A part of a part is a part. -/
theorem Included.trans {v : Tree ν α} (hut : Included u t) (htv : Included t v) : Included u v :=
  fun q n h => htv q n (hut q n h)

/-- A directory of a part is a directory. -/
theorem Included.isDir (h : Included u t) (hdir : isDir u cur = true) :
    isDir t cur = true := by
  cases cur with
  | nil => rfl
  | cons name names =>
    unfold FileSystem.isDir at hdir ⊢
    split at hdir
    · next heq => cases heq
    · next hnode _ => rw [h _ _ hnode]
    · cases hdir

private theorem Included.going (h : Included u t) (hloose : loose = true → strict = true)
    (hdir : (strict && !FileSystem.isDir u cur) = false) :
    (loose && !FileSystem.isDir t cur) = false := by
  cases loose with
  | false => rfl
  | true =>
    rw [hloose rfl, Bool.true_and, Bool.not_eq_false'] at hdir
    simp [h.isDir hdir]

private theorem mem_looked_normal {name : ν} {rest : List (Component ν)}
    (h : (strict && !isDir t cur) = false) :
    cur ++ [name] ∈ (walk t strict links cur (.normal name :: rest)).looked := by
  cases hname : t.lookup (cur ++ [name]) with
  | none => simp [walk_missing h hname]
  | some n =>
    cases n with
    | dir => simp [walk_node h hname nofun]
    | file contents => simp [walk_node h hname nofun]
    | link target =>
      cases links with
      | zero => simp [walk_link_zero h hname]
      | succ links => simp [walk_link_succ h hname]

/-- With more nodes, on a longer path and when it is less strict, a walk goes at least as far. -/
theorem Included.walk (h : Included u t) (hloose : loose = true → strict = true)
    (more : List (Component ν)) :
    (∀ q ∈ (walk u strict links cur path).passed,
        q ∈ (FileSystem.walk t loose links cur (path ++ more)).passed) ∧
      ∀ q ∈ (FileSystem.walk u strict links cur path).looked,
        q ∈ (FileSystem.walk t loose links cur (path ++ more)).looked := by
  induction links, cur, path using walk_induction u strict with
  | nil links cur => simp
  | root links cur rest ih =>
    simp only [List.cons_append, walk_root, Walk.passed_pass, Walk.looked_pass]
    exact ⟨List.cons_subset_cons [] ih.1, ih.2⟩
  | stuck links cur c rest hc hstuck => simp [walk_stuck hstuck hc]
  | current links cur rest hdir ih =>
    simp only [List.cons_append, walk_current hdir, walk_current (h.going hloose hdir),
      Walk.passed_pass, Walk.looked_pass]
    exact ⟨List.cons_subset_cons cur ih.1, ih.2⟩
  | parent links cur rest hdir ih =>
    simp only [List.cons_append, walk_parent hdir, walk_parent (h.going hloose hdir),
      Walk.passed_pass, Walk.looked_pass]
    exact ⟨List.cons_subset_cons _ ih.1, ih.2⟩
  | missing links cur name rest hdir hname =>
    simp only [walk_missing hdir hname, List.not_mem_nil, false_imp_iff, implies_true, true_and,
      List.mem_singleton, forall_eq]
    exact mem_looked_normal (h.going hloose hdir)
  | exhausted cur name rest target hdir hname =>
    simp only [walk_link_zero hdir hname, Walk.passed_look, Walk.passed_failure, Walk.looked_look,
      Walk.looked_failure, List.not_mem_nil, false_imp_iff, implies_true, true_and,
      List.mem_singleton, forall_eq]
    exact mem_looked_normal (h.going hloose hdir)
  | link links cur name rest target hdir hname ih =>
    rw [List.append_assoc] at ih
    simp only [List.cons_append, walk_link_succ hdir hname,
      walk_link_succ (h.going hloose hdir) (h _ _ hname), Walk.passed_look, Walk.passed_pass,
      Walk.looked_look, Walk.looked_pass]
    exact ⟨List.cons_subset_cons cur ih.1, List.cons_subset_cons _ ih.2⟩
  | node links cur name rest n hdir hname hnode ih =>
    simp only [List.cons_append, walk_node hdir hname hnode,
      walk_node (h.going hloose hdir) (h _ _ hname) hnode, Walk.passed_look, Walk.passed_pass,
      Walk.looked_look, Walk.looked_pass]
    exact ⟨List.cons_subset_cons _ ih.1, List.cons_subset_cons _ ih.2⟩

end

/-! ### Operations on paths -/

/-- The number of links the kernel follows in one path. -/
def maxLinks : Nat := 40

/-- Resolve a path from the root. -/
def resolve (t : Tree ν α) (path : List (Component ν)) : Walk ν := walk t true maxLinks [] path

/-- The location a path leads to. -/
def canonicalize (t : Tree ν α) (path : List (Component ν)) : Option (List ν) :=
  match (resolve t path).ending with
  | .reached p => some p
  | _ => none

/-- A path leads to a directory. -/
def isDirectory (t : Tree ν α) (path : List (Component ν)) : Bool :=
  (canonicalize t path).any (isDir t)

/-- The location of the last component of a path itself, which may be a link or missing. -/
def entry (t : Tree ν α) (path : List (Component ν)) : Option (List ν) :=
  match path.getLast? with
  | some (.normal name) =>
    (canonicalize t path.dropLast).bind fun p => if isDir t p then some (p ++ [name]) else none
  | _ => none

/-- Make one directory, where there is nothing yet. -/
def createDir (t : Tree ν α) (path : List (Component ν)) : Option (Tree ν α) :=
  (entry t path).bind fun p => if (t.lookup p).isNone then some (t.insert p .dir) else none

/-- Make a directory with those above it. -/
def createDirAll (t : Tree ν α) (path : List (Component ν)) : Option (Tree ν α) :=
  path.inits.foldlM (fun t path => if isDirectory t path then some t else createDir t path) t

/-- Remove some of the nodes. -/
def removeAll (t : Tree ν α) (gone : List (List ν)) : Tree ν α :=
  gone.foldl (fun t p => t.erase p) t

/-- Remove a location with everything below it. -/
def removeTree (t : Tree ν α) (p : List ν) : Tree ν α :=
  removeAll t (t.keys.filter fun q => p.isPrefixOf q)

/-- Replace or remove nodes one after the other. -/
def edit (t : Tree ν α) (edits : List (List ν × Option (Node ν α))) : Tree ν α :=
  edits.foldl (fun t e => match e.2 with | some n => t.insert e.1 n | none => t.erase e.1) t

/-- Remove a file or a link, if there is one. -/
def removeFile (t : Tree ν α) (p : List ν) : Tree ν α :=
  match t.lookup p with
  | none => t
  | some .dir => t
  | some _ => t.erase p

section

variable {t u : Tree ν α} {p q r : List ν} {path : List (Component ν)}

/-- A path has a canonical form when its walk reaches it. -/
theorem canonicalize_eq_some : canonicalize t path = some p ↔
    (resolve t path).ending = .reached p := by
  unfold canonicalize
  cases (resolve t path).ending <;> simp

/-- Paths resolve alike in trees that agree on what is looked up. -/
theorem canonicalize_congr (h : ∀ q ∈ (resolve t path).looked, u.lookup q = t.lookup q) :
    canonicalize u path = canonicalize t path := by
  unfold canonicalize resolve
  rw [walk_congr (fun q hq hne => absurd (List.prefix_nil.mp hq) hne) h]

/-- The last component is at the same location in trees that agree on what the path above it looks
up. -/
theorem entry_congr (h : ∀ q ∈ (resolve t path.dropLast).looked, u.lookup q = t.lookup q) :
    entry u path = entry t path := by
  have hparent := canonicalize_congr h
  unfold entry
  split
  · rw [hparent]
    refine Option.bind_congr fun p hp => ?_
    have hdir : isDir u p = isDir t p := by
      rcases place_of_passed (.inr (canonicalize_eq_some.mp hp)) with hnil | ⟨hlooked, -⟩
      · rw [List.prefix_nil.mp hnil]
        rfl
      · simp only [isDir, h p hlooked]
    rw [hdir]
  · rfl

/-- The location of a last component is below the root. -/
theorem entry_ne_nil (h : entry t path = some p) : p ≠ [] := by
  unfold entry at h
  split at h
  · obtain ⟨q, -, hq⟩ := Option.bind_eq_some_iff.mp h
    split at hq
    · obtain rfl := Option.some.inj hq
      exact List.append_ne_nil_of_right_ne_nil q (List.cons_ne_nil _ _)
    · cases hq
  · cases h

private theorem included_createDir (h : createDir t path = some u) : Included t u := by
  simp only [createDir, Option.bind_eq_some_iff] at h
  obtain ⟨p, -, hp⟩ := h
  split at hp
  · next hnone =>
    obtain rfl := Option.some.inj hp
    intro q n hq
    have hne : q ≠ p := by
      rintro rfl
      simp [hq] at hnone
    rwa [AList.lookup_insert_ne hne]
  · cases hp

private theorem included_foldlM {paths : List (List (Component ν))}
    (h : paths.foldlM (fun t path => if isDirectory t path then some t else createDir t path) t =
      some u) : Included t u := by
  induction paths generalizing t with
  | nil =>
    obtain rfl := Option.some.inj h
    exact Included.refl t
  | cons path paths ih =>
    rw [List.foldlM_cons, Option.bind_eq_bind, Option.bind_eq_some_iff] at h
    obtain ⟨v, hv, h⟩ := h
    split at hv
    · obtain rfl := Option.some.inj hv
      exact ih h
    · exact (included_createDir hv).trans (ih h)

/-- Making directories changes no node that is there. -/
theorem included_createDirAll (h : createDirAll t path = some u) : Included t u :=
  included_foldlM h

/-- Removing entries removes these. -/
theorem lookup_removeAll (gone : List (List ν)) :
    (removeAll t gone).lookup q = if q ∈ gone then none else t.lookup q := by
  rw [removeAll, Table.lookup_foldl_erase]
  by_cases hq : q ∈ gone <;> simp [hq]

/-- Removing a tree removes all below its root. -/
theorem lookup_removeTree :
    (removeTree t p).lookup q = if p <+: q then none else t.lookup q := by
  rw [removeTree, lookup_removeAll]
  by_cases hkey : q ∈ t.keys
  · simp [hkey]
  · have hnone : t.lookup q = none := AList.lookup_eq_none.mpr hkey
    simp [hkey, hnone]

/-- A tree less some entries is a part of it. -/
theorem included_removeAll (gone : List (List ν)) : Included (removeAll t gone) t := by
  intro q n h
  rw [lookup_removeAll] at h
  split at h
  · cases h
  · exact h

/-- Edits leave every other location as it was. -/
theorem lookup_edit {edits : List (List ν × Option (Node ν α))} (h : ∀ e ∈ edits, e.1 ≠ q) :
    (edit t edits).lookup q = t.lookup q := by
  induction edits generalizing t with
  | nil => rfl
  | cons e edits ih =>
    rw [List.forall_mem_cons] at h
    have hrest := ih (t := match e.2 with | some n => t.insert e.1 n | none => t.erase e.1) h.2
    refine hrest.trans ?_
    cases e.2 with
    | none => exact AList.lookup_erase_ne h.1.symm
    | some n => exact AList.lookup_insert_ne h.1.symm

/-- Removing a file leaves the others. -/
theorem lookup_removeFile_of_ne (h : q ≠ p) : (removeFile t p).lookup q = t.lookup q := by
  unfold removeFile
  split
  · rfl
  · rfl
  · exact AList.lookup_erase_ne h

end

end FileSystem
