import EightEen.Binary
import EightEen.Tampering

/-!
# Releases That Share a Cache

One machine can hold several versions of the package, each with its own manifest, and any number
of processes that provision the verifier binary into one cache or resolve it from there. Their
steps come in any order, and any of them may fail or die. A release is published once: it has
one digest for each of its assets. The assets of two releases may have one name, and what keeps
them apart is the tag of the release in the name of the cached file (`Cache.pins`).

`resolveProvisionedBinary` reads the file and asks for its mode at two moments, and the binary is
spawned at a third one. None of the others can come in between: a binary that has its bytes keeps
them, and one that can be executed stays so.

## Main results

* `Cache.pins`: two calls whose binaries have one path have one pin.
* `Leaves.of_step`: what a step can do to a cached binary.
* `cache_serves_every_release`: what has been provisioned or resolved will be resolved at any
  later moment.
-/

open Js Transition

namespace EightEen

namespace ProvisionBinary

/-- A slash or a backslash. -/
def isSeparator (c : Char) : Bool :=
  c = '/' || c.toNat = 0x5C

/-- The name of a file in its directory. -/
def IsFileName (name : String) : Prop :=
  (∀ c ∈ name.toList, isSeparator c = false) ∧ name ≠ "" ∧ name ≠ "." ∧ name ≠ ".."

/-- The tag of a release of the binaries: `longfellow-bin-<N>`. -/
def IsReleaseTag (release : String) : Prop :=
  ∃ digits : String, (∀ c ∈ digits.toList, isDecimal c = true) ∧
    release = "longfellow-bin-" ++ digits

/-- A character of `randomUUID()`. -/
def isUuidChar (c : Char) : Bool :=
  isLowerHex c || c = '-'

/-- The calls on one cache: the machine as each finds it, the manifest of its version, its
arguments and its random suffix. A path that is joined ends in the name that it was joined from,
no two suffixes are alike, and **each release was published once**, with one digest for each of
its assets. -/
structure Cache where
  host : ℕ → Host
  manifest : ℕ → BinaryManifest
  args : ℕ → BinaryArgs
  uuid : ℕ → String
  joins : ∀ c dir name, IsFileName name → ∃ before, (host c).join dir name = before ++ name ∧
    ∀ ch, before.toList.getLast? = some ch → isSeparator ch = true
  uuid_chars : ∀ c, ∀ ch ∈ (uuid c).toList, isUuidChar ch = true
  uuid_distinct : ∀ {c c'}, uuid c = uuid c' → c = c'
  tags : ∀ c, IsReleaseTag (manifest c).release
  assets : ∀ {c entry}, (args c).entry (host c) (manifest c) = .ok entry →
    ∀ ch ∈ entry.asset.toList, isSeparator ch = false
  published : ∀ {c c' entry entry'}, (args c).entry (host c) (manifest c) = .ok entry →
    (args c').entry (host c') (manifest c') = .ok entry' →
    (manifest c).release = (manifest c').release → entry.asset = entry'.asset →
    entry.sha256 = entry'.sha256

/-- The files, and how far each call is. -/
structure Shared (env : Setting) where
  files : Files.Store
  calls : ℕ → Call env

/-! ### Names of cached files -/

/-- The characters of a name of a release, cut behind the last one that is not of a UUID. -/
theorem toList_name (asset digits : String) :
    (asset ++ "-" ++ ("longfellow-bin-" ++ digits)).toList =
      (asset.toList ++ "-longfellow-bi".toList ++ ['n']) ++ ('-' :: digits.toList) := by
  have htag : "-".toList ++ "longfellow-bin-".toList =
      "-longfellow-bi".toList ++ ['n'] ++ ['-'] := by decide
  rw [String.toList_append, String.toList_append, String.toList_append, List.append_assoc,
    ← List.append_assoc "-".toList, htag]
  simp only [List.append_assoc, List.cons_append, List.nil_append]

/-- The characters of a partial path, cut in the same way. -/
theorem toList_partialPath (path uuid : String) :
    (partialPath path uuid).toList =
      (path.toList ++ ".par".toList ++ ['t']) ++ ('-' :: uuid.toList) := by
  have hpart : ".part-".toList = ".par".toList ++ ['t'] ++ ['-'] := by decide
  rw [partialPath, String.toList_append, String.toList_append, hpart]
  simp only [List.append_assoc, List.cons_append, List.nil_append]

/-- The dash behind the cut, and what follows it. -/
theorem uuidChars_cons {text : List Char} (h : ∀ ch ∈ text, isUuidChar ch = true) :
    ∀ ch ∈ '-' :: text, isUuidChar ch = true := by
  intro ch hch
  rcases List.mem_cons.mp hch with rfl | hmem
  · decide
  · exact h ch hmem

/-- A digit is a character of a UUID. -/
theorem isUuidChar_of_isDecimal {ch : Char} (h : isDecimal ch = true) : isUuidChar ch = true := by
  rw [isUuidChar, isLowerHex, h, Bool.true_or, Bool.true_or]

/-- The character before the cut. -/
theorem last_not_uuid (text : List Char) {last : Char} (hlast : isUuidChar last = false)
    (ch : Char) (h : (text ++ [last]).getLast? = some ch) : isUuidChar ch = false := by
  rw [List.getLast?_concat] at h
  obtain rfl := Option.some.inj h
  exact hlast

/-- **The name tells the asset from the release.** -/
theorem name_unique {asset asset' release release' : String} (hrelease : IsReleaseTag release)
    (hrelease' : IsReleaseTag release')
    (h : asset ++ "-" ++ release = asset' ++ "-" ++ release') :
    asset = asset' ∧ release = release' := by
  obtain ⟨digits, hdigits, rfl⟩ := hrelease
  obtain ⟨digits', hdigits', rfl⟩ := hrelease'
  have hchars := congrArg String.toList h
  rw [toList_name, toList_name] at hchars
  obtain ⟨hbase, hnumber⟩ := Pins.cut_unique hchars
    (uuidChars_cons fun ch hch => isUuidChar_of_isDecimal (hdigits ch hch))
    (uuidChars_cons fun ch hch => isUuidChar_of_isDecimal (hdigits' ch hch))
    (last_not_uuid _ (by decide)) (last_not_uuid _ (by decide))
  rw [List.append_assoc, List.append_assoc, List.append_left_inj] at hbase
  have hsame := String.toList_injective (List.cons_injective hnumber)
  exact ⟨String.toList_injective hbase, by rw [hsame]⟩

/-- The name of a cached file is a file name. -/
theorem isFileName_name {asset release : String} (hrelease : IsReleaseTag release)
    (hasset : ∀ ch ∈ asset.toList, isSeparator ch = false) :
    IsFileName (asset ++ "-" ++ release) := by
  obtain ⟨digits, hdigits, rfl⟩ := hrelease
  have hlong : 3 ≤ (asset ++ "-" ++ ("longfellow-bin-" ++ digits)).toList.length := by
    rw [toList_name]
    have hmiddle : "-longfellow-bi".toList.length = 14 := by decide
    simp only [List.length_append, hmiddle]
    omega
  refine ⟨fun ch hch => ?_, ?_, ?_, ?_⟩
  · rw [toList_name] at hch
    simp only [List.mem_append, List.mem_cons, List.not_mem_nil, or_false] at hch
    rcases hch with ((hch | hch) | rfl) | rfl | hch
    · exact hasset ch hch
    · have hall : "-longfellow-bi".toList.all (fun ch => !isSeparator ch) = true := by decide
      simpa using List.all_eq_true.mp hall ch hch
    · decide
    · decide
    · have hdigit := hdigits ch hch
      rw [isDecimal, Bool.and_eq_true, decide_eq_true_eq, decide_eq_true_eq] at hdigit
      rw [isSeparator, Bool.or_eq_false_iff, decide_eq_false_iff_not, decide_eq_false_iff_not]
      refine ⟨?_, by omega⟩
      rintro rfl
      exact absurd hdigit (by decide)
  all_goals
    intro heq
    rw [heq] at hlong
    exact absurd hlong (by decide)

/-- A joined path tells the name that it ends in. -/
theorem joined_unique {before before' name name' : String} (hname : IsFileName name)
    (hname' : IsFileName name')
    (hbefore : ∀ ch, before.toList.getLast? = some ch → isSeparator ch = true)
    (hbefore' : ∀ ch, before'.toList.getLast? = some ch → isSeparator ch = true)
    (h : before ++ name = before' ++ name') : name = name' := by
  have hchars := congrArg String.toList h
  rw [String.toList_append, String.toList_append] at hchars
  have hnames := (Pins.cut_unique (p := fun ch => !isSeparator ch) hchars
    (fun ch hch => by rw [hname.1 ch hch]; rfl) (fun ch hch => by rw [hname'.1 ch hch]; rfl)
    (fun ch hch => by rw [hbefore ch hch]; rfl) (fun ch hch => by rw [hbefore' ch hch]; rfl)).2
  exact String.toList_injective hnames

namespace Cache

variable {env : Setting} {cache : Cache}

/-- **One path, one pin**: two calls whose binaries have one path are of one release and about
one asset of it. -/
theorem pins {c c' : ℕ} {entry entry' : BinaryEntry}
    (h : (cache.args c).entry (cache.host c) (cache.manifest c) = .ok entry)
    (h' : (cache.args c').entry (cache.host c') (cache.manifest c') = .ok entry')
    (heq : cachedPath (cache.host c) (cache.manifest c) (cache.args c) entry =
      cachedPath (cache.host c') (cache.manifest c') (cache.args c') entry') :
    entry.sha256 = entry'.sha256 := by
  have hname := isFileName_name (cache.tags c) (cache.assets h)
  have hname' := isFileName_name (cache.tags c') (cache.assets h')
  rw [cachedPath, cachedPath] at heq
  obtain ⟨before, hpath, hbefore⟩ := cache.joins c _ _ hname
  obtain ⟨before', hpath', hbefore'⟩ := cache.joins c' _ _ hname'
  rw [hpath, hpath'] at heq
  obtain ⟨hasset, hrelease⟩ := name_unique (cache.tags c) (cache.tags c')
    (joined_unique hname hname' hbefore hbefore' heq)
  exact cache.published h h' hrelease hasset

/-- No binary is at the path of a partial file. -/
theorem apart {c : ℕ} {entry : BinaryEntry}
    (h : (cache.args c).entry (cache.host c) (cache.manifest c) = .ok entry) (c' : ℕ)
    (path : String) : cachedPath (cache.host c) (cache.manifest c) (cache.args c) entry ≠
      partialPath path (cache.uuid c') := by
  intro heq
  obtain ⟨before, hpath, -⟩ :=
    cache.joins c _ _ (isFileName_name (cache.tags c) (cache.assets h))
  obtain ⟨digits, hdigits, hrelease⟩ := cache.tags c
  rw [cachedPath, hpath, hrelease] at heq
  have hchars := congrArg String.toList heq
  rw [String.toList_append, toList_name, toList_partialPath, ← List.append_assoc] at hchars
  obtain ⟨hbase, -⟩ := Pins.cut_unique (p := isUuidChar) hchars
    (uuidChars_cons fun ch hch => isUuidChar_of_isDecimal (hdigits ch hch))
    (uuidChars_cons (cache.uuid_chars c'))
    (by
      rw [← List.append_assoc]
      exact last_not_uuid _ (by decide))
    (last_not_uuid _ (by decide))
  have hlast := congrArg List.getLast? hbase
  rw [← List.append_assoc, List.getLast?_concat, List.getLast?_concat] at hlast
  exact absurd hlast (by decide)

/-- The partial files of two calls are two files. -/
theorem distinct {path path' : String} {c c' : ℕ}
    (h : partialPath path (cache.uuid c) = partialPath path' (cache.uuid c')) : c = c' := by
  have hchars := congrArg String.toList h
  rw [toList_partialPath, toList_partialPath] at hchars
  obtain ⟨-, hsuffix⟩ := Pins.cut_unique (p := isUuidChar) hchars
    (uuidChars_cons (cache.uuid_chars c)) (uuidChars_cons (cache.uuid_chars c'))
    (last_not_uuid _ (by decide)) (last_not_uuid _ (by decide))
  exact cache.uuid_distinct (String.toList_injective (List.cons_injective hsuffix))

/-- No call has got beyond its arguments. -/
def start (env : Setting) (cache : Cache) (files : Files.Store) : Shared env :=
  ⟨files, fun c => Call.begin env (cache.host c) (cache.manifest c) (cache.args c)⟩

/-- One step of one call. Nobody writes to a buffer that a call was handed. -/
def step (cache : Cache) (s : Shared env) (e : ℕ × Event) : Option (Shared env) :=
  if e.2.overwrites then none
  else
    (ProvisionBinary.step env (cache.host e.1) (cache.manifest e.1) (cache.args e.1)
      (cache.uuid e.1) (s.files, s.calls e.1) e.2).map fun next =>
        { files := next.1, calls := Function.update s.calls e.1 next.2 }

theorem step_eq_some {s s' : Shared env} {e : ℕ × Event} (h : cache.step s e = some s') :
    e.2.overwrites = false ∧ ∃ files' call',
      ProvisionBinary.step env (cache.host e.1) (cache.manifest e.1) (cache.args e.1)
        (cache.uuid e.1) (s.files, s.calls e.1) e.2 = some (files', call') ∧
      s' = ⟨files', Function.update s.calls e.1 call'⟩ := by
  rw [step] at h
  by_cases hkeeps : e.2.overwrites = true
  · rw [if_pos hkeeps] at h
    cases h
  rw [if_neg hkeeps] at h
  obtain ⟨next, hstep, hnext⟩ := Option.map_eq_some_iff.mp h
  exact ⟨Bool.eq_false_iff.mpr hkeeps, next.1, next.2, hstep, hnext.symm⟩

/-- The binary that a call is about is at this path, with this pin. -/
def Pinned (cache : Cache) (c : ℕ) (entry : BinaryEntry) (path : String) : Prop :=
  (cache.args c).entry (cache.host c) (cache.manifest c) = .ok entry ∧
    path = cachedPath (cache.host c) (cache.manifest c) (cache.args c) entry

/-! ### What a step does to a binary -/

/-- What becomes of the file at the path of a binary: it stays, its mode is repaired, or the
pinned bytes take its place. -/
inductive Leaves (env : Setting) (sha256 : String) (before after : Option Files.File) : Prop
  | kept (h : after = before)
  | repaired (h : after = before.map fun file => { file with mode := 0o755 })
  | installed (file : Files.File) (h : after = some file)
      (hsha : env.sha256 file.bytes = sha256) (hmode : file.mode = 0o755)

namespace Leaves

variable {files files' : Files.Store} {path sha256 : String}

/-- The pinned bytes stay. -/
theorem intact (h : Leaves env sha256 (files path) (files' path))
    (hintact : isIntact env files path sha256 = true) :
    isIntact env files' path sha256 = true := by
  rw [isIntact] at hintact ⊢
  cases h with
  | kept h => rwa [h]
  | repaired h =>
      rw [h]
      cases hfile : files path with
      | none =>
          rw [hfile] at hintact
          cases hintact
      | some file => rwa [hfile] at hintact
  | installed file h hsha _ =>
      rw [h]
      exact decide_eq_true hsha

/-- What can be executed stays so, where what everyone may execute can be executed. -/
theorem executable (h : Leaves env sha256 (files path) (files' path)) {host : Host}
    (hexecutes : host.Executes) (hexecutable : isExecutable host files path = true) :
    isExecutable host files' path = true := by
  rw [isExecutable] at hexecutable ⊢
  cases h with
  | kept h => rwa [h]
  | repaired h =>
      rw [h]
      cases hfile : files path with
      | none =>
          rw [hfile] at hexecutable
          cases hexecutable
      | some file => exact hexecutes
  | installed file h _ hmode =>
      rw [h]
      dsimp only
      rw [hmode]
      exact hexecutes

/-- What is in its place stays there. -/
theorem ready {entry : BinaryEntry} (h : Leaves env entry.sha256 (files path) (files' path))
    (hready : Ready env files path entry) : Ready env files' path entry := by
  obtain ⟨file, hfile, hsha, hmode⟩ := hready
  cases h with
  | kept h => exact ⟨file, h.trans hfile, hsha, hmode⟩
  | repaired h => exact ⟨{ file with mode := 0o755 }, by rw [h, hfile]; rfl, hsha, rfl⟩
  | installed file' h hsha' hmode' => exact ⟨file', h, hsha', hmode'⟩

end Leaves

/-- **What a step of any call does to a binary** that some call is about. -/
theorem Leaves.of_step {c c' : ℕ} {entry : BinaryEntry} {path : String}
    (hpinned : cache.Pinned c entry path) {files files' : Files.Store} {call call' : Call env}
    {e : Event}
    (hinv : Invariant env (cache.host c') (cache.manifest c') (cache.args c') (cache.uuid c')
      files call.stage)
    (hstep : ProvisionBinary.step env (cache.host c') (cache.manifest c') (cache.args c')
      (cache.uuid c') (files, call) e = some (files', call')) :
    Leaves env entry.sha256 (files path) (files' path) := by
  obtain ⟨hentry, rfl⟩ := hpinned
  cases moves_of_step hstep with
  | @repaired entry' hstage =>
      by_cases hpath : cachedPath (cache.host c) (cache.manifest c) (cache.args c) entry =
          cachedPath (cache.host c') (cache.manifest c') (cache.args c') entry'
      · rw [hpath]
        exact .repaired (files.modify_self _ _)
      · exact .kept (files.modify_of_ne hpath _)
  | fetched hstage hfetch =>
      rw [hstage] at hinv
      obtain ⟨hentry', rfl, hholds⟩ := hinv
      rcases FetchPinned.step_path hholds hfetch (apart hentry c' _) with
        hsame | ⟨hpath, body, hbuffer, hfile⟩
      · exact .kept hsame
      · refine .installed _ hfile ?_ rfl
        exact (FetchPinned.sha256_job hbuffer _).trans (pins hentry hentry' hpath).symm
  | _ => exact .kept rfl

/-! ### What every call keeps -/

/-- Every call keeps the invariant that it has alone. -/
def Sound (cache : Cache) (s : Shared env) : Prop :=
  ∀ c, Invariant env (cache.host c) (cache.manifest c) (cache.args c) (cache.uuid c) s.files
    (s.calls c).stage

/-- **What a step of another call leaves.** -/
theorem invariant_of_other {c c' : ℕ} (hne : c ≠ c') {files files' : Files.Store}
    {call call' other : Call env} {e : Event}
    (hother : Invariant env (cache.host c) (cache.manifest c) (cache.args c) (cache.uuid c)
      files other.stage)
    (hinv : Invariant env (cache.host c') (cache.manifest c') (cache.args c') (cache.uuid c')
      files call.stage)
    (hstep : ProvisionBinary.step env (cache.host c') (cache.manifest c') (cache.args c')
      (cache.uuid c') (files, call) e = some (files', call')) :
    Invariant env (cache.host c) (cache.manifest c) (cache.args c) (cache.uuid c) files'
      other.stage := by
  have hleaves : ∀ entry path, cache.Pinned c entry path →
      Leaves env entry.sha256 (files path) (files' path) :=
    fun entry path hpinned => Leaves.of_step hpinned hinv hstep
  revert hother
  cases other.stage with
  | chmodding entry => exact fun h => ⟨h.1, (hleaves entry _ ⟨h.1, rfl⟩).intact h.2⟩
  | present entry | fetched entry =>
      exact fun h => ⟨h.1, (hleaves entry _ ⟨h.1, rfl⟩).ready h.2⟩
  | resolved path fetched =>
      rintro ⟨entry, hentry, rfl, hready⟩
      exact ⟨entry, hentry, rfl, (hleaves entry _ ⟨hentry, rfl⟩).ready hready⟩
  | installing entry spec phase =>
      rintro ⟨hentry, rfl, hholds⟩
      refine ⟨hentry, rfl, hholds.of_agree ?_⟩
      cases moves_of_step hstep with
      | repaired hstage =>
          rw [hstage] at hinv
          exact files.modify_of_ne (apart hinv.1 c _).symm _
      | fetched hstage hfetch =>
          rw [hstage] at hinv
          obtain ⟨hentry', rfl, -⟩ := hinv
          refine FetchPinned.step_frame hfetch (apart hentry' c _).symm ?_
          exact fun heq => hne (distinct heq)
      | _ => rfl
  | _ => exact id

/-- **A step of any call keeps the cache sound**: its own call by what it does, and every other
one since the paths are kept apart. -/
theorem Sound.step {s s' : Shared env} {e : ℕ × Event} (h : cache.Sound s)
    (hstep : cache.step s e = some s') : cache.Sound s' := by
  obtain ⟨hkeeps, files', call', hcall, rfl⟩ := step_eq_some hstep
  intro c
  by_cases hc : c = e.1
  · subst hc
    dsimp only
    rw [Function.update_self]
    exact (h e.1).step hkeeps hcall
  · dsimp only
    rw [Function.update_of_ne hc]
    exact invariant_of_other hc (h c) (h e.1) hcall

/-- So a cache is sound in every run, over whatever files there were before. -/
theorem sound_of_run {before : Files.Store} {s : Shared env} {events : List (ℕ × Event)}
    (hrun : exec cache.step (cache.start env before) events = some s) : cache.Sound s :=
  exec_invariant (fun _ _ _ h hstep => h.step hstep) hrun
    fun c => invariant_begin (cache.uuid c) before

/-- Whatever every step leaves of a binary, a run leaves. -/
theorem run_keeps {c : ℕ} {entry : BinaryEntry} {path : String}
    (hpinned : cache.Pinned c entry path) {Q : Files.Store → Prop}
    (hQ : ∀ {files files' : Files.Store}, Leaves env entry.sha256 (files path) (files' path) →
      Q files → Q files') {s s' : Shared env} {events : List (ℕ × Event)} (hs : cache.Sound s)
    (hrun : exec cache.step s events = some s') (h : Q s.files) : Q s'.files := by
  have hboth : cache.Sound s' ∧ Q s'.files := by
    refine exec_invariant (I := fun s => cache.Sound s ∧ Q s.files) ?_ hrun ⟨hs, h⟩
    rintro s e s' ⟨hs, h⟩ hstep
    obtain ⟨-, files', call', hcall, rfl⟩ := step_eq_some hstep
    exact ⟨hs.step hstep, hQ (Leaves.of_step hpinned (hs e.1) hcall) h⟩
  exact hboth.2

/-! ### Resolving -/

/-- **The cache serves every release.** Where a call of `provisionBinary` has resolved, or a call of
`resolveProvisionedBinary` that read the file at one moment and asked for its mode at another, the
binary that is meant has the pinned bytes and can be executed, no call of another release has
another pin for its path, and it is resolved to the same path at any two later moments, on a file
system that permits execution. -/
theorem cache_serves_every_release {before : Files.Store} {s : Shared env}
    {events : List (ℕ × Event)}
    (hrun : exec cache.step (cache.start env before) events = some s) (c : ℕ)
    (hexecutes : (cache.host c).Executes) (path : String)
    (hclaimed : (∃ fetched, (s.calls c).stage = .resolved path fetched) ∨
      ∃ early late r, events = early ++ late ∧
        exec cache.step (cache.start env before) early = some r ∧
        resolveProvisionedBinary env (cache.host c) (cache.manifest c) (cache.args c) r.files
          s.files = .ok path) :
    (∃ entry file, cache.Pinned c entry path ∧ s.files path = some file ∧
      env.sha256 file.bytes = entry.sha256 ∧ (cache.host c).executable file.mode = true ∧
      ∀ c' entry', cache.Pinned c' entry' path → entry'.sha256 = entry.sha256) ∧
    ∀ more t evenMore u, exec cache.step s more = some t → exec cache.step t evenMore = some u →
      resolveProvisionedBinary env (cache.host c) (cache.manifest c) (cache.args c) t.files
        u.files = .ok path := by
  have hsound := sound_of_run hrun
  -- Both ways the binary is intact and executable now.
  have hnow : ∃ entry, cache.Pinned c entry path ∧
      isIntact env s.files path entry.sha256 = true ∧
      isExecutable (cache.host c) s.files path = true := by
    rcases hclaimed with ⟨fetched, hstage⟩ | ⟨early, late, r, rfl, hearly, hresolve⟩
    · have hinv := hsound c
      rw [hstage] at hinv
      obtain ⟨entry, hentry, rfl, hready⟩ := hinv
      have hresolves := resolves_of_ready hexecutes hentry hready
      obtain ⟨entry', hentry', hpath, hintact, hexecutable⟩ :=
        resolveProvisionedBinary_eq_ok_iff.mp hresolves
      exact ⟨entry', ⟨hentry', hpath⟩, hintact, hexecutable⟩
    · obtain ⟨entry, hentry, hpath, hintact, hexecutable⟩ :=
        resolveProvisionedBinary_eq_ok_iff.mp hresolve
      obtain ⟨r', hr', hlate⟩ := exec_append_eq_some_iff.mp hrun
      obtain rfl : r = r' := Option.some.inj (hearly.symm.trans hr')
      exact ⟨entry, ⟨hentry, hpath⟩, run_keeps ⟨hentry, hpath⟩
        (fun hleaves h => hleaves.intact h) (sound_of_run hearly) hlate hintact, hexecutable⟩
  obtain ⟨entry, hpinned, hintact, hexecutable⟩ := hnow
  refine ⟨?_, fun more t evenMore u ht hu => ?_⟩
  · rw [isIntact] at hintact
    rw [isExecutable] at hexecutable
    cases hfile : s.files path with
    | none =>
        rw [hfile] at hintact
        cases hintact
    | some file =>
        rw [hfile] at hintact hexecutable
        refine ⟨entry, file, hpinned, rfl, of_decide_eq_true hintact, hexecutable, ?_⟩
        rintro c' entry' ⟨hentry', hpath'⟩
        exact pins hentry' hpinned.1 (hpath'.symm.trans hpinned.2)
  · have hall : exec cache.step s (more ++ evenMore) = some u :=
      exec_append_eq_some_iff.mpr ⟨t, ht, hu⟩
    exact resolveProvisionedBinary_eq_ok_iff.mpr ⟨entry, hpinned.1, hpinned.2,
      run_keeps hpinned (fun hleaves h => hleaves.intact h) hsound ht hintact,
      run_keeps hpinned (fun hleaves h => hleaves.executable hexecutes h) hsound hall hexecutable⟩

/-- A setting in which one byte has the digest of the old binary, and another that of the next
one. -/
def twoDigests : Setting where
  numberText _ := ""
  jsonText _ := .ok ""
  sha256 bytes := if bytes = [0x7F] then "pinned" else if bytes = [0x80] then "pinned too"
    else "other"
  umask := 0o111

/-- The manifest of the next version, with an asset of the same name. -/
def nextManifest : BinaryManifest where
  release := "longfellow-bin-2"
  binaries := ⟨[("linux-x64", some ⟨"verifier", "pinned too", .finite 1⟩)], fun _ => none⟩

/-- The version of a call: the first one is old. -/
def manifestOf (c : ℕ) : BinaryManifest :=
  if c = 0 then sampleManifest else nextManifest

/-- The suffix of a call: as many letters as the call says. -/
def sampleSuffix (c : ℕ) : String :=
  String.ofList (List.replicate c 'a')

/-- What a call is about. -/
theorem entry_manifestOf {c : ℕ} {entry : BinaryEntry}
    (h : (⟨none, .undefined⟩ : BinaryArgs).entry sampleHost (manifestOf c) = .ok entry) :
    entry.asset = "verifier" ∧
      (c = 0 ∧ entry.sha256 = "pinned" ∨ c ≠ 0 ∧ entry.sha256 = "pinned too") := by
  have hlookup := entryFor_eq_ok h
  rw [manifestOf] at hlookup
  by_cases hc : c = 0
  · rw [if_pos hc] at hlookup
    obtain rfl := Option.some.inj (Option.some.inj hlookup)
    exact ⟨rfl, Or.inl ⟨hc, rfl⟩⟩
  · rw [if_neg hc] at hlookup
    obtain rfl := Option.some.inj (Option.some.inj hlookup)
    exact ⟨rfl, Or.inr ⟨hc, rfl⟩⟩

/-- The release of a call. -/
theorem release_manifestOf (c : ℕ) :
    (manifestOf c).release = "longfellow-bin-" ++ if c = 0 then "1" else "2" := by
  rw [manifestOf]
  split <;> rfl

/-- One call of the old version, and any number of the next one. -/
def sampleCache : Cache where
  host _ := sampleHost
  manifest := manifestOf
  args _ := ⟨none, .undefined⟩
  uuid := sampleSuffix
  joins _ dir name _ := by
    refine ⟨dir ++ "/", rfl, fun ch hch => ?_⟩
    have hslash : (dir ++ "/").toList = dir.toList ++ ['/'] := by
      rw [String.toList_append]
      rfl
    rw [hslash, List.getLast?_concat] at hch
    obtain rfl := Option.some.inj hch
    decide
  uuid_chars c ch hch := by
    rw [sampleSuffix, String.toList_ofList] at hch
    obtain rfl := List.eq_of_mem_replicate hch
    decide
  uuid_distinct := by
    intro c c' h
    have hlength := congrArg List.length (String.ofList_injective h)
    rwa [List.length_replicate, List.length_replicate] at hlength
  tags c := by
    have hdigits : ("1".toList.all isDecimal && "2".toList.all isDecimal) = true := by decide
    rw [Bool.and_eq_true, List.all_eq_true, List.all_eq_true] at hdigits
    refine ⟨_, ?_, release_manifestOf c⟩
    split
    · exact hdigits.1
    · exact hdigits.2
  assets := by
    intro c entry h
    have hname : "verifier".toList.all (fun ch => !isSeparator ch) = true := by decide
    rw [(entry_manifestOf h).1]
    exact fun ch hch => by simpa using List.all_eq_true.mp hname ch hch
  published := by
    intro c c' entry entry' h h' hrelease _
    rw [release_manifestOf, release_manifestOf] at hrelease
    rcases (entry_manifestOf h).2 with ⟨hc, hsha⟩ | ⟨hc, hsha⟩ <;>
      rcases (entry_manifestOf h').2 with ⟨hc', hsha'⟩ | ⟨hc', hsha'⟩
    · rw [hsha, hsha']
    · rw [if_pos hc, if_neg hc'] at hrelease
      exact absurd hrelease (by decide)
    · rw [if_neg hc, if_pos hc'] at hrelease
      exact absurd hrelease (by decide)
    · rw [hsha, hsha']

/-- Both versions provision, and the next one installs its binary while the old one is at its
download. -/
def twoReleases : List (ℕ × Event) :=
  (sampleEvents.take 4).map (Prod.mk 0) ++
    ([.proceeds, .proceeds, .proceeds,
      .fetch (.answer (.reply ⟨true, .finite 200, .finite 1, .ok [0x80]⟩)),
      .fetch (.op .opened), .fetch (.op (.wrote 1)), .fetch (.op .closed),
      .fetch (.op .chmodded), .fetch (.op .renamed), .proceeds] : List Event).map (Prod.mk 1) ++
    (sampleEvents.drop 4).map (Prod.mk 0)

/-- The binaries of both versions have their own bytes, and will be resolved whatever the others
do. -/
theorem cache_serves_every_release_sampleCache :
    ∃ s : Shared twoDigests,
      exec sampleCache.step (sampleCache.start twoDigests fun _ => none) twoReleases = some s ∧
      s.files "/root/.cache/zk8een/verifier-longfellow-bin-1" = some ⟨[0x7F], 0o755⟩ ∧
      s.files "/root/.cache/zk8een/verifier-longfellow-bin-2" = some ⟨[0x80], 0o755⟩ ∧
      ∀ more t evenMore u, exec sampleCache.step s more = some t →
        exec sampleCache.step t evenMore = some u →
        resolveProvisionedBinary twoDigests sampleHost sampleManifest ⟨none, .undefined⟩
            t.files u.files = .ok "/root/.cache/zk8een/verifier-longfellow-bin-1" ∧
          resolveProvisionedBinary twoDigests sampleHost nextManifest ⟨none, .undefined⟩
            t.files u.files = .ok "/root/.cache/zk8een/verifier-longfellow-bin-2" := by
  have hrun : exec sampleCache.step (sampleCache.start twoDigests fun _ => none) twoReleases =
      some _ := rfl
  have hold := (cache_serves_every_release hrun 0 rfl _ (Or.inl ⟨true, rfl⟩)).2
  have hnext := (cache_serves_every_release hrun 1 rfl _ (Or.inl ⟨true, rfl⟩)).2
  exact ⟨_, hrun, rfl, rfl, fun more t evenMore u ht hu =>
    ⟨hold more t evenMore u ht hu, hnext more t evenMore u ht hu⟩⟩

end Cache

end ProvisionBinary

end EightEen
