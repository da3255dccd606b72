import Llamesh.Library.Base64
import Llamesh.Library.Provisioning
import Mathlib.Data.List.Infix
import Mathlib.Logic.Function.Basic

/-!
# The identity of a node across restarts

`initialize` (`src/noise/mod.rs:86–113`) makes sure of the configuration directory, the private key
and the cluster token: what is there is checked and read, what is not is generated and saved
(`src/noise/permissions.rs:21–71`, `src/noise/keypair.rs:59–123`, `src/noise/token.rs:19–85`). A
start may die between any two operations on the disk, and a save that fails is such a start. The
peers know the node by its key, so a later start must not come up with another one.

Modes are the nine permission bits. The files hold text; the known peers, which are loaded last, are
left out.
-/

namespace Llamesh.Noise.Identity

open Text Provisioning

/-- The files `initialize` may write. -/
inductive Secret where
  | key | token
deriving DecidableEq, Repr

/-- The failures. The text of a file system error is not modelled. -/
inductive NoiseError where
  | permissionDenied (path : Option Secret) (actual expected : Nat)
  | keyFile (message : String)
  | token (message : String)
deriving DecidableEq, Repr

/-- `FILE_MODE`. -/
def fileMode : Nat := 0o600

/-- `DIR_MODE`. -/
def dirMode : Nat := 0o700

structure File where
  text : List Char
  mode : Nat
deriving DecidableEq, Repr

/-- The configuration directory, with its mode, and the files. -/
structure Disk where
  dir : Option Nat
  files : Secret → Option File

/-- The later disk still has what the earlier one had. -/
instance : Preorder Disk where
  le d e := (∀ mode, d.dir = some mode → e.dir = some mode) ∧
    ∀ secret file, d.files secret = some file → e.files secret = some file
  le_refl _ := ⟨fun _ h => h, fun _ _ h => h⟩
  le_trans _ _ _ h h' :=
    ⟨fun mode hmode => h'.1 mode (h.1 mode hmode),
      fun secret file hfile => h'.2 secret file (h.2 secret file hfile)⟩

/-- One operation on the disk. -/
inductive Op where
  | createDir (mode : Nat)
  | setDirMode (mode : Nat)
  | create (secret : Secret) (mode : Nat)
  | append (secret : Secret) (text : List Char)
  | setMode (secret : Secret) (mode : Nat)

/-- The disk with a file changed. -/
def Disk.modify (d : Disk) (secret : Secret) (f : File → File) : Disk :=
  { d with files := Function.update d.files secret ((d.files secret).map f) }

def Op.apply (d : Disk) : Op → Disk
  | createDir mode => { d with dir := some mode }
  | setDirMode mode => { d with dir := d.dir.map fun _ => mode }
  | create secret mode =>
    { d with files := Function.update d.files secret (some ⟨[], mode⟩) }
  | append secret text => d.modify secret fun file => { file with text := file.text ++ text }
  | setMode secret mode => d.modify secret fun file => { file with mode := mode }

variable (base64 : Base64.Codec)

/-- One start: the environment, the random octets, the modes the file mode mask leaves, and the
pieces in which the files are written. -/
structure Start where
  nodePrivateKey : Option (List Char)
  clusterToken : Option (List Char)
  newKey : List UInt8
  newToken : List UInt8
  dirMask : Nat
  mask : Secret → Nat
  chunks : Secret → List (List Char)
  newKey_length : newKey.length = 32
  newToken_length : newToken.length = 32
  flatten_key : (chunks .key).flatten = base64.encode newKey
  flatten_token : (chunks .token).flatten = base64.encode newToken

/-- A program on the disk. -/
abbrev Program (α : Type) := Script Disk Op NoiseError α

/-- `check_file_mode`; `src/noise/permissions.rs:23–36`. -/
def checkFileMode (path : Option Secret) (mode expected : Nat) : Except NoiseError Unit :=
  if mode ≠ expected then .error (.permissionDenied path mode expected) else .ok ()

/-- Makes the directory, or checks its mode. `src/noise/permissions.rs:45–62`. -/
def ensureConfigDir (start : Start base64) : Program Unit := fun d =>
  match d.dir with
  | some mode => ([], checkFileMode none mode dirMode)
  | none => ([.createDir start.dirMask, .setDirMode dirMode], .ok ())

/-- `NodeKeypair::load`; `src/noise/keypair.rs:73–88`. -/
def loadKey (file : File) : Except NoiseError (List UInt8) :=
  match checkFileMode (some .key) file.mode fileMode with
  | .error e => .error e
  | .ok () =>
    match base64.decode (trim file.text) with
    | .error e => .error (.keyFile s!"Invalid base64 in key file: {e}")
    | .ok bytes =>
      if bytes.length = 32 then .ok bytes else .error (.keyFile "Key file must contain 32 bytes")

/-- `NODE_PRIVATE_KEY`; `src/noise/keypair.rs:98–107`. -/
def envKey (text : List Char) : Except NoiseError (List UInt8) :=
  match base64.decode (trim text) with
  | .error e => .error (.keyFile s!"Invalid NODE_PRIVATE_KEY env var: {e}")
  | .ok bytes =>
    if bytes.length = 32 then .ok bytes
    else .error (.keyFile "NODE_PRIVATE_KEY must be 32 bytes base64")

/-- `token::load`; `src/noise/token.rs:36–52`. -/
def loadToken (file : File) : Except NoiseError (List Char) :=
  match checkFileMode (some .token) file.mode fileMode with
  | .error e => .error e
  | .ok () =>
    if trim file.text = [] then .error (.token "Token file is empty")
    else
      match base64.decode (trim file.text) with
      | .error e => .error (.token s!"Invalid token format: {e}")
      | .ok _ => .ok (trim file.text)

/-- `CLUSTER_TOKEN`, which counts as unset when it is blank; `src/noise/token.rs:58–68`. -/
def envToken (text : List Char) : Option (Except NoiseError (List Char)) :=
  if trim text = [] then none
  else
    match base64.decode (trim text) with
    | .error e => some (.error (.token s!"Invalid CLUSTER_TOKEN env var: {e}"))
    | .ok _ => some (.ok (trim text))

/-- `save` of the two files; `src/noise/keypair.rs:61–71`, `src/noise/token.rs:26–34`. -/
def save (secret : Secret) (start : Start base64) : List Op :=
  .create secret (start.mask secret) ::
    ((start.chunks secret).map (.append secret) ++ [.setMode secret fileMode])

/-- The common part of the two `get_or_create`: the environment first, then the file. -/
def getOrCreate {α : Type} (secret : Secret) (env : Option (Except NoiseError α))
    (load : File → Except NoiseError α) (fresh : α) (start : Start base64) : Program α := fun d =>
  match env with
  | some result => ([], result)
  | none =>
    match d.files secret with
    | some file => ([], load file)
    | none => (save base64 secret start, .ok fresh)

/-- `keypair::get_or_create`; `src/noise/keypair.rs:93–123`. -/
def getOrCreateKey (start : Start base64) : Program (List UInt8) :=
  getOrCreate base64 .key (start.nodePrivateKey.map (envKey base64)) (loadKey base64) start.newKey
    start

/-- `token::get_or_create`; `src/noise/token.rs:56–85`. -/
def getOrCreateToken (start : Start base64) : Program (List Char) :=
  getOrCreate base64 .token (start.clusterToken.bind (envToken base64)) (loadToken base64)
    (base64.encode start.newToken) start

/-- The key and the token of `initialize`; `src/noise/mod.rs:92–101`. -/
def initializeNoise (start : Start base64) : Program (List UInt8 × List Char) :=
  (ensureConfigDir base64 start).bind Op.apply fun _ =>
    (getOrCreateKey base64 start).bind Op.apply fun key =>
      (getOrCreateToken base64 start).bind Op.apply fun token _ => ([], .ok (key, token))

/-- The environment gives neither the key nor the token. -/
def Start.Plain (start : Start base64) : Prop :=
  start.nodePrivateKey = none ∧ start.clusterToken.bind (envToken base64) = none

/-! ## Writing a file -/

/-- The disk with a file in place. -/
def Disk.put (d : Disk) (secret : Secret) (file : File) : Disk :=
  { d with files := Function.update d.files secret (some file) }

section

variable {d : Disk} {secret : Secret} {file : File}

/-- A file that was put is there. -/
@[simp] theorem Disk.files_put (d : Disk) (secret : Secret) (file : File) :
    (d.put secret file).files secret = some file := Function.update_self ..

private theorem Disk.files_put_of_ne {other : Secret} (h : other ≠ secret) :
    (d.put secret file).files other = d.files other := Function.update_of_ne h ..

private theorem Disk.modify_put (f : File → File) :
    (d.put secret file).modify secret f = d.put secret (f file) := by
  rw [modify, files_put, Option.map_some]
  simp only [put, Function.update_idem]

/-- A new file takes nothing away. -/
theorem Disk.le_put (h : d.files secret = none) : d ≤ d.put secret file := by
  refine ⟨fun mode hmode => hmode, fun other found hfound => ?_⟩
  by_cases hother : other = secret
  · rw [hother, h] at hfound
    cases hfound
  · rw [files_put_of_ne hother]
    exact hfound

private theorem foldl_append (chunks : List (List Char)) (file : File) :
    (chunks.map (Op.append secret)).foldl Op.apply (d.put secret file) =
      d.put secret { file with text := file.text ++ chunks.flatten } := by
  induction chunks generalizing file with
  | nil => rw [List.map_nil, List.foldl_nil, List.flatten_nil, List.append_nil]
  | cons chunk chunks ih =>
    rw [List.map_cons, List.foldl_cons, Op.apply, Disk.modify_put, ih, List.flatten_cons,
      ← List.append_assoc]

variable {base64} {start : Start base64}

/-- A whole save leaves the text with the mode of a secret. -/
theorem foldl_save :
    (save base64 secret start).foldl Op.apply d =
      d.put secret ⟨(start.chunks secret).flatten, fileMode⟩ := by
  have hcreate : Op.apply d (.create secret (start.mask secret)) =
      d.put secret ⟨[], start.mask secret⟩ := rfl
  rw [save, List.foldl_cons, hcreate, List.foldl_append, foldl_append, List.foldl_cons,
    List.foldl_nil, Op.apply, Disk.modify_put, List.nil_append]

/-- A save that is cut off leaves nothing or the beginning of the text. -/
theorem foldl_take_save (start : Start base64) (d : Disk) (secret : Secret) (k : Nat) :
    ((save base64 secret start).take k).foldl Op.apply d = d ∨
      ∃ file : File, file.text <+: (start.chunks secret).flatten ∧
        ((save base64 secret start).take k).foldl Op.apply d = d.put secret file := by
  cases k with
  | zero => exact .inl rfl
  | succ k =>
    right
    have hcreate : Op.apply d (.create secret (start.mask secret)) =
        d.put secret ⟨[], start.mask secret⟩ := rfl
    have hbegin : ((start.chunks secret).take k).flatten <+: (start.chunks secret).flatten := by
      conv_rhs => rw [← List.take_append_drop k (start.chunks secret), List.flatten_append]
      exact List.prefix_append _ _
    rw [save, List.take_succ_cons, List.foldl_cons, hcreate, List.take_append, List.foldl_append,
      ← List.map_take, foldl_append, List.nil_append]
    cases hrest : ([Op.setMode secret fileMode]).take
        (k - ((start.chunks secret).map _).length) with
    | nil => exact ⟨_, hbegin, rfl⟩
    | cons op ops =>
      have hsingle : op :: ops = [Op.setMode secret fileMode] := by
        have hle := List.take_sublist (k - ((start.chunks secret).map (Op.append secret)).length)
          [Op.setMode secret fileMode]
        rw [hrest] at hle
        exact hle.eq_of_length_le (by simp)
      rw [hsingle, List.foldl_cons, List.foldl_nil, Op.apply, Disk.modify_put]
      exact ⟨_, hbegin, rfl⟩

end

/-! ## The first start decides -/

section

variable {base64} {d : Disk} {start : Start base64}

private theorem cut_ensureConfigDir (k : Nat) (d : Disk) :
    (cut Op.apply (ensureConfigDir base64 start) k d).files = d.files ∧
      d ≤ cut Op.apply (ensureConfigDir base64 start) k d := by
  unfold cut ensureConfigDir
  cases hdir : d.dir with
  | some mode =>
    rw [List.take_nil]
    exact ⟨rfl, le_rfl⟩
  | none =>
    have hfiles : ((([.createDir start.dirMask, .setDirMode dirMode] : List Op).take k).foldl
        Op.apply d).files = d.files := by
      rcases k with _ | _ | k
      · rfl
      · rfl
      · rw [List.take_of_length_le (by simp)]
        rfl
    refine ⟨hfiles, fun mode hmode => ?_, fun secret file hfile => ?_⟩
    · rw [hdir] at hmode
      cases hmode
    · rw [← hfiles] at hfile
      exact hfile

private theorem cut_getOrCreate {α : Type} {secret : Secret}
    {env : Option (Except NoiseError α)} {load : File → Except NoiseError α} {fresh : α}
    (k : Nat) (d : Disk) :
    cut Op.apply (getOrCreate base64 secret env load fresh start) k d = d ∨
      d.files secret = none ∧ ∃ file : File, file.text <+: (start.chunks secret).flatten ∧
        cut Op.apply (getOrCreate base64 secret env load fresh start) k d = d.put secret file := by
  unfold cut getOrCreate
  cases env with
  | some result =>
    rw [List.take_nil]
    exact .inl rfl
  | none =>
    cases hfile : d.files secret with
    | some file =>
      dsimp only
      rw [List.take_nil]
      exact .inl rfl
    | none =>
      rcases foldl_take_save start d secret k with hsame | hput
      · exact .inl hsame
      · exact .inr ⟨rfl, hput⟩

private theorem firstStays_ensureConfigDir :
    FirstStays Op.apply (Start.Plain base64) (ensureConfigDir base64) where
  grows start k d := (cut_ensureConfigDir k d).2
  settled := by
    intro start other d e _ _ hle
    unfold after ensureConfigDir at *
    cases hdir : d.dir with
    | some mode =>
      rw [hdir] at hle
      rw [hle.1 mode hdir]
    | none =>
      rw [hdir] at hle
      rw [hle.1 dirMode rfl]
      rfl

private theorem firstStays_getOrCreate {α : Type} {secret : Secret}
    {env : Start base64 → Option (Except NoiseError α)} {load : File → Except NoiseError α}
    {fresh : Start base64 → α} (henv : ∀ start, start.Plain base64 → env start = none)
    (hload : ∀ start : Start base64,
      load ⟨(start.chunks secret).flatten, fileMode⟩ = .ok (fresh start)) :
    FirstStays Op.apply (Start.Plain base64) fun start =>
      getOrCreate base64 secret (env start) load (fresh start) start where
  grows start k d := by
    rcases cut_getOrCreate k d with hsame | ⟨hnone, file, -, hput⟩
    · exact hsame.ge
    · exact (Disk.le_put hnone).trans hput.ge
  settled := by
    intro start other d e hstart hother hle
    unfold after getOrCreate at *
    simp only [henv start hstart, henv other hother] at hle ⊢
    cases hfile : d.files secret with
    | some file =>
      simp only [hfile] at hle
      simp only [hle.2 secret file hfile]
    | none =>
      simp only [hfile, foldl_save] at hle
      simp only [hle.2 secret _ (Disk.files_put d secret _), hload]

private theorem trim_encode {octets : List UInt8} {text : List Char}
    (h : text <+: base64.encode octets) : trim text = text := by
  have hspace : ∀ c ∈ text, isWhitespace c = false := fun c hc =>
    base64.not_whitespace octets c (h.subset hc)
  exact trim_eq_self (fun c hc => hspace c (List.mem_of_head? hc))
    fun c hc => hspace c (List.mem_of_getLast? hc)

private theorem encode_ne_nil {octets : List UInt8} (h : octets.length = 32) :
    base64.encode octets ≠ [] := by
  intro hnil
  have hlength := base64.length_encode octets
  rw [hnil, h] at hlength
  cases hlength

private theorem firstStays_getOrCreateKey :
    FirstStays Op.apply (Start.Plain base64) (getOrCreateKey base64) := by
  refine firstStays_getOrCreate (fun start hstart => by rw [hstart.1]; rfl) fun start => ?_
  rw [loadKey, start.flatten_key, checkFileMode, if_neg (by simp)]
  simp only [trim_encode (List.prefix_refl _), base64.decode_encode, start.newKey_length, if_true]

private theorem firstStays_getOrCreateToken :
    FirstStays Op.apply (Start.Plain base64) (getOrCreateToken base64) := by
  refine firstStays_getOrCreate (fun start hstart => hstart.2) fun start => ?_
  rw [loadToken, start.flatten_token, checkFileMode, if_neg (by simp)]
  simp only [trim_encode (List.prefix_refl _), base64.decode_encode,
    if_neg (encode_ne_nil start.newToken_length)]

private theorem firstStays_initializeNoise :
    FirstStays Op.apply (Start.Plain base64) (initializeNoise base64) := by
  refine firstStays_ensureConfigDir.bind fun _ => firstStays_getOrCreateKey.bind fun key =>
    firstStays_getOrCreateToken.bind fun token => ?_
  exact ⟨fun start k d => by rw [cut, List.take_nil]; exact le_rfl, fun _ _ _ => rfl⟩

end

/-! ## Where the secrets come from -/

/-- Every file is the beginning of what one of the starts saved. -/
def Saved (starts : List (Start base64)) (d : Disk) : Prop :=
  ∀ secret file, d.files secret = some file →
    ∃ start ∈ starts, file.text <+: (start.chunks secret).flatten

section

variable {base64} {starts : List (Start base64)} {start : Start base64}

private theorem Saved.mono {more : List (Start base64)} {d : Disk} (h : Saved base64 starts d)
    (hmore : starts ⊆ more) : Saved base64 more d := fun secret file hfile => by
  obtain ⟨start, hstart, hbegin⟩ := h secret file hfile
  exact ⟨start, hmore hstart, hbegin⟩

private theorem saved_ensureConfigDir (k : Nat) (d : Disk) (h : Saved base64 starts d) :
    Saved base64 starts (cut Op.apply (ensureConfigDir base64 start) k d) := by
  intro secret file hfile
  rw [(cut_ensureConfigDir k d).1] at hfile
  exact h secret file hfile

private theorem saved_getOrCreate {α : Type} {secret : Secret}
    {env : Option (Except NoiseError α)} {load : File → Except NoiseError α} {fresh : α}
    (hstart : start ∈ starts) (k : Nat) (d : Disk) (h : Saved base64 starts d) :
    Saved base64 starts
      (cut Op.apply (getOrCreate base64 secret env load fresh start) k d) := by
  rcases cut_getOrCreate k d with hsame | ⟨-, file, hbegin, hput⟩
  · rw [hsame]
    exact h
  · rw [hput]
    intro other found hfound
    by_cases hother : other = secret
    · rw [hother, Disk.files_put] at hfound
      cases hfound
      rw [hother]
      exact ⟨start, hstart, hbegin⟩
    · rw [Disk.files_put_of_ne hother] at hfound
      exact h other found hfound

private theorem saved_initializeNoise (hstart : start ∈ starts) (k : Nat) (d : Disk)
    (h : Saved base64 starts d) :
    Saved base64 starts (cut Op.apply (initializeNoise base64 start) k d) := by
  refine cut_bind saved_ensureConfigDir (fun _ => cut_bind (saved_getOrCreate hstart)
    fun key => cut_bind (saved_getOrCreate hstart) fun token k d h => ?_) k d h
  rw [cut, List.take_nil]
  exact h

/-- The disk of a node that was never started. -/
def emptyDisk : Disk := ⟨none, fun _ => none⟩

private theorem saved_runs (before : List (Start base64 × Nat)) :
    Saved base64 (before.map (·.1)) (runs Op.apply (initializeNoise base64) before emptyDisk) := by
  refine runs_induction (P := fun starts d => Saved base64 starts d)
    (fun secret file hfile => by cases hfile) (fun starts start k d h => ?_) before
  refine saved_initializeNoise ?_ k d (h.mono (List.subset_append_left _ _))
  exact List.mem_append_right _ (List.mem_singleton_self _)

private theorem key_of_getOrCreateKey {d : Disk} {key : List UInt8} (hplain : start.Plain base64)
    (h : Saved base64 starts d) (hkey : (getOrCreateKey base64 start d).2 = .ok key) :
    key = start.newKey ∨ ∃ other ∈ starts, key = other.newKey := by
  unfold getOrCreateKey getOrCreate at hkey
  rw [hplain.1, Option.map_none] at hkey
  dsimp only at hkey
  split at hkey
  · next file hfile =>
    right
    obtain ⟨other, hother, hbegin⟩ := h .key file hfile
    rw [other.flatten_key] at hbegin
    dsimp only at hkey
    unfold loadKey at hkey
    rw [trim_encode hbegin] at hkey
    split at hkey
    · cases hkey
    · split at hkey
      · cases hkey
      · next bytes hbytes =>
        split at hkey
        · next hlength =>
          cases hkey
          exact ⟨other, hother, Base64.Codec.eq_of_beginning hbegin hbytes
            (hlength.trans other.newKey_length.symm)⟩
        · cases hkey
  · cases hkey
    exact .inl rfl

private theorem token_of_getOrCreateToken {d : Disk} {token : List Char}
    (hplain : start.Plain base64) (h : Saved base64 starts d)
    (htoken : (getOrCreateToken base64 start d).2 = .ok token) :
    token ≠ [] ∧ (token = base64.encode start.newToken ∨
      ∃ other ∈ starts, token <+: base64.encode other.newToken) := by
  unfold getOrCreateToken getOrCreate at htoken
  rw [hplain.2] at htoken
  dsimp only at htoken
  split at htoken
  · next file hfile =>
    obtain ⟨other, hother, hbegin⟩ := h .token file hfile
    rw [other.flatten_token] at hbegin
    dsimp only at htoken
    unfold loadToken at htoken
    rw [trim_encode hbegin] at htoken
    split at htoken
    · cases htoken
    · split at htoken
      · cases htoken
      · next hne =>
        split at htoken
        · cases htoken
        · cases htoken
          exact ⟨hne, .inr ⟨other, hother, hbegin⟩⟩
  · cases htoken
    exact ⟨encode_ne_nil start.newToken_length, .inl rfl⟩

/-- The first start that runs to its end decides. Whatever starts follow, cut off anywhere and in
any environment, every later one that relies on the files comes to the same result, a refusal
included, and writes nothing. On a disk that only such starts have written, the key is one that a
start generated, never a part of it; the token is a non-empty beginning of a generated one. -/
theorem identity_settled {first later : Start base64} (hfirst : first.Plain base64)
    (hlater : later.Plain base64) (before between : List (Start base64 × Nat)) (d : Disk) :
    let program := initializeNoise base64
    let found := runs Op.apply program before d
    program later (runs Op.apply program between (after Op.apply (program first) found)) =
        ([], (program first found).2) ∧
      (d = emptyDisk → ∀ key token, (program first found).2 = .ok (key, token) →
        (∃ start ∈ first :: before.map (·.1), key = start.newKey) ∧ token ≠ [] ∧
          ∃ start ∈ first :: before.map (·.1), token <+: base64.encode start.newToken) := by
  intro program found
  refine ⟨firstStays_initializeNoise.result_eq hfirst hlater found between, ?_⟩
  rintro rfl key token hresult
  have hfound : Saved base64 (before.map (·.1)) found := saved_runs before
  obtain ⟨-, -, hrest⟩ := result_bind_eq_ok.mp hresult
  obtain ⟨read, hkey, hrest⟩ := result_bind_eq_ok.mp hrest
  obtain ⟨secret, htoken, hpair⟩ := result_bind_eq_ok.mp hrest
  cases hpair
  have hdir : Saved base64 (first :: before.map (·.1))
      (after Op.apply (ensureConfigDir base64 first) found) := by
    rw [← cut_length]
    exact saved_ensureConfigDir _ _ (hfound.mono (List.subset_cons_self _ _))
  have hsaved : Saved base64 (first :: before.map (·.1)) (after Op.apply
      (getOrCreateKey base64 first) (after Op.apply (ensureConfigDir base64 first) found)) := by
    rw [← cut_length (f := getOrCreateKey base64 first)]
    exact saved_getOrCreate List.mem_cons_self _ _ hdir
  refine ⟨?_, ?_⟩
  · rcases key_of_getOrCreateKey hfirst hdir hkey with hnew | hother
    · exact ⟨first, List.mem_cons_self, hnew⟩
    · exact hother
  · obtain ⟨hne, hnew | hother⟩ := token_of_getOrCreateToken hfirst hsaved htoken
    · exact ⟨hne, first, List.mem_cons_self, hnew ▸ List.prefix_refl _⟩
    · exact ⟨hne, hother⟩

/-- A start whose random octets are all the same. -/
def repeatedStart (b : UInt8) : Start Base64.standard where
  nodePrivateKey := none
  clusterToken := none
  newKey := List.replicate 32 b
  newToken := List.replicate 32 b
  dirMask := 0o755
  mask := fun _ => 0o644
  chunks := fun _ => [Base64.standard.encode (List.replicate 32 b)]
  newKey_length := List.length_replicate
  newToken_length := List.length_replicate
  flatten_key := List.append_nil _
  flatten_token := List.append_nil _

private theorem repeatedStart_plain (b : UInt8) :
    (repeatedStart b).Plain Base64.standard := ⟨rfl, rfl⟩

/-- The third start has the key and the token of the first; the second was cut off. -/
theorem repeatedStart_settled :
    initializeNoise Base64.standard (repeatedStart 3)
        (runs Op.apply (initializeNoise Base64.standard) [(repeatedStart 2, 4)]
          (after Op.apply (initializeNoise Base64.standard (repeatedStart 1)) emptyDisk)) =
      ([], .ok (List.replicate 32 1, Base64.standard.encode (List.replicate 32 1))) :=
  (identity_settled (repeatedStart_plain 1) (repeatedStart_plain 3) [] [(repeatedStart 2, 4)]
    emptyDisk).1

end

end Llamesh.Noise.Identity
