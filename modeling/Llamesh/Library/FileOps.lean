import Llamesh.Library.Table

/-!
# Interrupted sequences of file operations

General support: files under names, changed by one operation after the other. A
sequence that is cut off has done a first part of its operations. What an observer
can find after any cut is composed from the parts of the sequence.
-/

namespace FileOps

universe u v w

variable {ν : Type u} {β : Type v} [DecidableEq ν]

/-- Files with their contents. -/
abbrev Files (ν : Type u) (β : Type v) := Table ν (List β)

/-- The operations that change a file. -/
inductive Op (ν : Type u) (β : Type v) where
  | create (name : ν)
  | append (name : ν) (bytes : List β)
  | rename (source target : ν)
  | remove (name : ν)
  deriving DecidableEq, Repr

namespace Op

/-- What an operation leaves. Creating empties a file that exists, and renaming replaces one. -/
def apply (files : Files ν β) : Op ν β → Files ν β
  | create name => files.insert name []
  | append name bytes => files.modify name (· ++ bytes)
  | rename source target =>
    match files.lookup source with
    | some bytes => (files.erase source).insert target bytes
    | none => files
  | remove name => files.erase name

/-- The names an operation may change. -/
def names : Op ν β → List ν
  | create name => [name]
  | append name _ => [name]
  | rename source target => [source, target]
  | remove name => [name]

/-- An operation touches only the files it names. -/
theorem lookup_apply {files : Files ν β} {op : Op ν β} {name : ν} (h : name ∉ op.names) :
    (op.apply files).lookup name = files.lookup name := by
  cases op with
  | create created =>
    rw [apply, Table.lookup_insert_eq, if_neg (by simpa [names] using h)]
  | append appended bytes =>
    rw [apply, Table.lookup_modify, if_neg (by simpa [names] using h)]
  | rename source target =>
    have hne : name ≠ source ∧ name ≠ target := by simpa [names] using h
    rw [apply]
    split
    · rw [Table.lookup_insert_eq, if_neg hne.2, Table.lookup_erase_eq, if_neg hne.1]
    · rfl
  | remove removed =>
    rw [apply, Table.lookup_erase_eq, if_neg (by simpa [names] using h)]

end Op

/-- One operation after the other. -/
def applyAll (ops : List (Op ν β)) (files : Files ν β) : Files ν β := ops.foldl Op.apply files

/-- No operations change nothing. -/
@[simp] theorem applyAll_nil (files : Files ν β) : applyAll [] files = files := rfl

/-- Operations compose. -/
theorem applyAll_append (ops ops' : List (Op ν β)) (files : Files ν β) :
    applyAll (ops ++ ops') files = applyAll ops' (applyAll ops files) :=
  List.foldl_append

/-- Operations touch only the files they name. -/
theorem lookup_applyAll {ops : List (Op ν β)} {name : ν} (h : ∀ op ∈ ops, name ∉ op.names)
    (files : Files ν β) : (applyAll ops files).lookup name = files.lookup name := by
  induction ops generalizing files with
  | nil => rfl
  | cons op ops ih =>
    obtain ⟨hop, hops⟩ := List.forall_mem_cons.mp h
    exact (ih hops _).trans (Op.lookup_apply hop)

/-- Write a file piece by piece. -/
def writeChunks (name : ν) (chunks : List (List β)) : List (Op ν β) :=
  .create name :: chunks.map (.append name)

/-- A file that is written in pieces has all of them. -/
theorem lookup_writeChunks (name : ν) (chunks : List (List β)) (files : Files ν β) :
    (applyAll (writeChunks name chunks) files).lookup name = some chunks.flatten := by
  have happend : ∀ (chunks : List (List β)) (files : Files ν β) (bytes : List β),
      files.lookup name = some bytes →
        (applyAll (chunks.map (.append name)) files).lookup name =
          some (bytes ++ chunks.flatten) := by
    intro chunks
    induction chunks with
    | nil =>
      intro files bytes h
      simpa using h
    | cons chunk chunks ih =>
      intro files bytes h
      have hnext : ((Op.append name chunk).apply files).lookup name = some (bytes ++ chunk) := by
        rw [Op.apply, Table.lookup_modify, if_pos rfl, h, Option.map_some]
      have hrest := ih _ _ hnext
      rw [List.append_assoc] at hrest
      exact hrest
  have hcreate : ((Op.create name).apply files).lookup name = some [] := by
    rw [Op.apply, Table.lookup_insert_eq, if_pos rfl]
  exact happend chunks _ [] hcreate

omit [DecidableEq ν] in
/-- Writing in pieces names only its file. -/
theorem names_of_mem_writeChunks {name : ν} {chunks : List (List β)} {op : Op ν β}
    (h : op ∈ writeChunks name chunks) : op.names = [name] := by
  rcases List.mem_cons.mp h with rfl | h
  · rfl
  · obtain ⟨chunk, -, rfl⟩ := List.mem_map.mp h
    rfl

/-! ### What can be found after a cut -/

variable {ω : Type w} {observe : Files ν β → ω}

/-- A sequence passes through the observations `ws`, in this order: they and the first one are what
can be found after a cut, and the last one is what is found at the end. -/
structure Passes (observe : Files ν β → ω) (files : Files ν β) (ops : List (Op ν β))
    (ws : List ω) : Prop where
  cut : ∀ w, (∃ k, observe (applyAll (ops.take k) files) = w) ↔ w ∈ observe files :: ws
  last : observe (applyAll ops files) = ws.getLastD (observe files)

/-- No operations pass through no views. -/
theorem Passes.nil (files : Files ν β) : Passes observe files [] [] where
  cut w := by simp [eq_comm]
  last := rfl

/-- One operation. -/
theorem Passes.single (files : Files ν β) (op : Op ν β) :
    Passes observe files [op] [observe (op.apply files)] where
  cut w := by
    constructor
    · rintro ⟨k, rfl⟩
      cases k with
      | zero => exact List.mem_cons_self
      | succ k => exact List.mem_cons_of_mem _ (by simp [applyAll])
    · intro h
      rcases List.mem_pair.mp h with rfl | rfl
      · exact ⟨0, rfl⟩
      · exact ⟨1, rfl⟩
  last := rfl

/-- One sequence after the other. -/
theorem Passes.append {files : Files ν β} {ops ops' : List (Op ν β)} {ws ws' : List ω}
    (h : Passes observe files ops ws) (h' : Passes observe (applyAll ops files) ops' ws') :
    Passes observe files (ops ++ ops') (ws ++ ws') where
  cut w := by
    rw [← List.cons_append, List.mem_append, ← h.cut]
    constructor
    · rintro ⟨k, rfl⟩
      rw [List.take_append, applyAll_append]
      rcases Nat.le_total k ops.length with hk | hk
      · left
        refine ⟨k, ?_⟩
        rw [Nat.sub_eq_zero_of_le hk, List.take_zero, applyAll_nil]
      · rw [List.take_of_length_le hk]
        rcases List.mem_cons.mp ((h'.cut _).mp ⟨k - ops.length, rfl⟩) with hfirst | hlater
        · left
          exact ⟨ops.length, by rw [List.take_length, hfirst]⟩
        · exact .inr hlater
    · rintro (⟨k, rfl⟩ | hw)
      · refine ⟨min k ops.length, ?_⟩
        rw [List.take_append_of_le_length (Nat.min_le_right _ _), ← List.take_take,
          List.take_length]
      · obtain ⟨k, rfl⟩ := (h'.cut w).mpr (List.mem_cons_of_mem _ hw)
        exact ⟨ops.length + k, by rw [List.take_length_add_append, applyAll_append]⟩
  last := by
    rw [applyAll_append, h'.last, h.last]
    simp [List.getLastD_eq_getLast?, List.getLast?_append]

/-- Operations that the observer does not see. -/
theorem Passes.unseen {ops : List (Op ν β)} (files : Files ν β)
    (h : ∀ k, observe (applyAll (ops.take k) files) = observe files) :
    Passes observe files ops [] where
  cut w := by
    constructor
    · rintro ⟨k, rfl⟩
      exact List.mem_singleton.mpr (h k)
    · intro hw
      exact ⟨0, (List.mem_singleton.mp hw).symm⟩
  last := by
    have hall := h ops.length
    rwa [List.take_length] at hall

end FileOps
