import EightEen.Answers
import EightEen.Boot

/-!
# What the Child Is Told

The call of `spawn` in `start()` of `src/service.js`: the file, the arguments and the
environment of the child, from the options of whoever starts it. `startGate` and
`Verifier.start` hand their options on with a field or two replaced (`Way.handed`), the
constructor spreads them over its defaults, and `start()` takes the arguments out of the
result. What the audit of the log is about is read from two of these fields again, the
directory of the circuits and the bundle of the roots.

## Main results

* `ownField_spreadOver`, `ownField_minimalEnv`: what is in the environment that `spawn` is given.
* `Way.handed_eq`: the options survive the way, but for what is replaced on it.
* `launched_as_audited`: a service that is ready has been audited against the very directory
  and bundle that its child was told to load, and of the host's environment the child finds
  seven variables and the one that `spawn` itself hands on.
-/

open Js Transition

namespace EightEen

/-! ### The environment -/

/-- `process.env`. -/
abbrev HostEnv := String → Option String

/-- `keep` of `minimalEnv`. -/
def keep : List String :=
  ["PATH", "HOME", "TMPDIR", "LANG", "LC_ALL", "SSL_CERT_FILE", "SSL_CERT_DIR"]

/-- `minimalEnv()`. -/
def minimalEnv (host : HostEnv) : List (String × Value) :=
  keep.filterMap fun k => (host k).map fun v => (k, .string v)

/-- `{ ...base, ...later }`: a name of both keeps its place and takes the later value. -/
def spreadOver (base later : List (String × Value)) : List (String × Value) :=
  base.map (fun e => (e.1, ((later.find? fun f => f.1 == e.1).getD e).2)) ++
    later.filter fun f => !base.any fun e => e.1 == f.1

/-- The own property `name`, if there is one. -/
def ownField (props : List (String × Value)) (name : String) : Option Value :=
  (props.find? fun e => e.1 == name).map Prod.snd

/-- The elements of a list, under their places. -/
def placed (items : List Value) : List (String × Value) :=
  items.zipIdx.map fun e => (toString e.2, e.1)

/-- The code units of a string, each as the text that a child is given for it: a half of a
surrogate pair is written out as U+FFFD. -/
def unitTexts (s : String) : List String :=
  s.toList.flatMap fun c =>
    if c.toNat < 0x10000 then [c.toString] else ["\uFFFD", "\uFFFD"]

/-- What `{ ...v }` copies: the properties of an object, and under their places the elements of
an array, the code units of a string and the elements of a typed array, which `elements` reads
from its bytes. -/
def spreadProps (elements : BinaryClass → List UInt8 → List Value) : Value → List (String × Value)
  | .object props => props
  | .array items => placed items
  | .string s => placed ((unitTexts s).map Value.string)
  | .binary cls data => placed (elements cls data)
  | _ => []

/-- What is spread of the `env` of `{ ...DEFAULTS, ...opts }`. -/
def envOf (elements : BinaryClass → List UInt8 → List Value) (opts : Value) :
    List (String × Value) :=
  spreadProps elements (spreadField opts "env" .undefined)

/-- The first property of a name is the one that is found. -/
theorem ownField_cons (e : String × Value) (props : List (String × Value)) (name : String) :
    ownField (e :: props) name = if e.1 = name then some e.2 else ownField props name := by
  rw [ownField, List.find?_cons]
  by_cases h : e.1 = name
  · simp [h]
  · rw [if_neg h, beq_eq_false_iff_ne.mpr h]
    rfl

/-- Properties behind others are found where those have none of the name. -/
theorem ownField_append (props rest : List (String × Value)) (name : String) :
    ownField (props ++ rest) name = (ownField props name).or (ownField rest name) := by
  rw [ownField, List.find?_append, Option.map_or]
  rfl

/-- A name is there when the object has it. -/
theorem any_eq_isSome (props : List (String × Value)) (name : String) :
    (props.any fun e => e.1 == name) = (ownField props name).isSome := by
  rw [ownField, Option.isSome_map, Bool.eq_iff_iff, List.any_eq_true, List.find?_isSome]

/-- What is left of the later object when the names of the first are out. -/
theorem ownField_filter_any (base later : List (String × Value)) (name : String) :
    ownField (later.filter fun f => !base.any fun e => e.1 == f.1) name =
      if (ownField base name).isSome then none else ownField later name := by
  induction later with
  | nil => exact (ite_self _).symm
  | cons f later ih =>
      by_cases hname : f.1 = name
      · cases hbase : (ownField base name).isSome with
        | true =>
            rw [List.filter_cons_of_neg, ih, hbase, if_pos rfl, if_pos rfl]
            rw [hname, any_eq_isSome, hbase]
            simp
        | false =>
            rw [List.filter_cons_of_pos, ownField_cons, if_pos hname, ownField_cons, if_pos hname]
            · rfl
            · rw [hname, any_eq_isSome, hbase]
              rfl
      · have hskip : ownField (f :: later) name = ownField later name := by
          rw [ownField_cons, if_neg hname]
        rw [hskip, ← ih, List.filter_cons]
        split
        · rw [ownField_cons, if_neg hname]
        · rfl

/-- **A spread over another**: the later object decides on the names it has. -/
theorem ownField_spreadOver (base later : List (String × Value)) (name : String) :
    ownField (spreadOver base later) name = (ownField later name).or (ownField base name) := by
  have hbase : ownField (base.map fun e => (e.1, ((later.find? fun f => f.1 == e.1).getD e).2))
      name = (ownField base name).map fun v => (ownField later name).getD v := by
    induction base with
    | nil => rfl
    | cons e base ih =>
        rw [List.map_cons, ownField_cons, ownField_cons, ih]
        by_cases h : e.1 = name
        · rw [if_pos h, if_pos h, Option.map_some, ownField, h]
          cases later.find? fun f => f.1 == name <;> rfl
        · rw [if_neg h, if_neg h]
  rw [spreadOver, ownField_append, hbase, ownField_filter_any]
  cases ownField base name <;> cases ownField later name <;> rfl

/-- **What is kept of the host's environment.** -/
theorem ownField_minimalEnv (host : HostEnv) (name : String) :
    ownField (minimalEnv host) name =
      if name ∈ keep then (host name).map Value.string else none := by
  rw [minimalEnv]
  generalize keep = names
  induction names with
  | nil => rfl
  | cons k names ih =>
      rw [List.filterMap_cons]
      cases hk : host k with
      | none =>
          rw [Option.map_none, ih]
          by_cases hname : name = k
          · rw [hname, hk, Option.map_none, ite_self, ite_self]
          · simp only [List.mem_cons, hname, false_or]
      | some v =>
          rw [Option.map_some]
          dsimp only
          rw [ownField_cons, ih]
          by_cases hname : name = k
          · rw [if_pos hname.symm, hname, if_pos List.mem_cons_self, hk, Option.map_some]
          · rw [if_neg (Ne.symm hname)]
            simp only [List.mem_cons, hname, false_or]

/-- Hosts that agree on what is kept are the same to the child. -/
theorem minimalEnv_congr {host host' : HostEnv} (h : ∀ name ∈ keep, host' name = host name) :
    minimalEnv host' = minimalEnv host :=
  List.filterMap_congr fun name hname => by rw [h name hname]

/-! ### The options on their way -/

/-- Who starts the service. -/
inductive Way where
  /-- `new VerifierService(opts).start()`. -/
  | service
  /-- `Verifier.start(opts)`. -/
  | verifier
  /-- `startGate(opts)`. -/
  | gate

/-- What `Verifier.start(opts)` hands to the constructor of the service. -/
def Verifier.handed (p : Platform) (provisioned : Completion Value) (opts : Value) :
    Completion Value := do
  let _ ← requireThreshold p opts
  requireBinary p opts
  let binary ← if (opts.get "binary").nullish then provisioned else .ok (opts.get "binary")
  .ok (opts.withField "binary" binary)

/-- What each of them hands to the constructor. -/
def Way.handed (p : Platform) (provisioned : Completion Value) (opts : Value) :
    Way → Completion Value
  | service => .ok opts
  | verifier => Verifier.handed p provisioned opts
  | gate => do
      prepareGate opts
      Verifier.handed p provisioned (verifierOptions opts)

/-- The service that each of them constructs. -/
def Way.constructs (p : Platform) (provisioned : Completion Value) (opts : Value) :
    Way → Completion ServiceOptions
  | service => ServiceOptions.construct opts
  | verifier => (Verifier.prepare p provisioned opts).map Prepared.service
  | gate => do
      prepareGate opts
      (Verifier.prepare p provisioned (verifierOptions opts)).map Prepared.service

/-- The service that `Verifier.start` constructs is the one from what it hands on. -/
theorem prepare_eq_handed (p : Platform) (provisioned : Completion Value) (opts : Value) :
    (Verifier.prepare p provisioned opts).map Prepared.service =
      Verifier.handed p provisioned opts >>= ServiceOptions.construct := by
  rw [Verifier.prepare, Verifier.handed]
  simp only [bind, Except.bind, Except.map]
  cases requireThreshold p opts with
  | error e => rfl
  | ok threshold =>
      dsimp only
      cases requireBinary p opts with
      | error e => rfl
      | ok u =>
          dsimp only
          by_cases hnullish : (opts.get "binary").nullish = true
          · rw [if_pos hnullish, if_pos hnullish]
            cases provisioned with
            | error e => rfl
            | ok binary =>
                dsimp only
                cases ServiceOptions.construct (opts.withField "binary" binary) <;> rfl
          · rw [if_neg hnullish, if_neg hnullish]
            dsimp only
            cases ServiceOptions.construct (opts.withField "binary" (opts.get "binary")) <;> rfl

/-- The service that each of them constructs is the one from what it hands on. -/
theorem Way.constructs_eq_ok {p : Platform} {provisioned : Completion Value} {opts : Value}
    {way : Way} {o : ServiceOptions} (h : way.constructs p provisioned opts = .ok o) :
    ∃ opts', way.handed p provisioned opts = .ok opts' ∧
      ServiceOptions.construct opts' = .ok o := by
  cases way with
  | service => exact ⟨opts, rfl, h⟩
  | verifier =>
      rw [Way.constructs, prepare_eq_handed] at h
      exact bind_eq_ok.mp h
  | gate =>
      obtain ⟨u, hgate, h⟩ := bind_eq_ok.mp h
      rw [prepare_eq_handed] at h
      obtain ⟨opts', hhanded, hconstruct⟩ := bind_eq_ok.mp h
      exact ⟨opts', bind_eq_ok.mpr ⟨u, hgate, hhanded⟩, hconstruct⟩

/-- A field is spread as before when another one is replaced. -/
theorem spreadField_withField (v : Value) {name name' : String} (x d : Value)
    (h : name ≠ name') : spreadField (v.withField name x) name' d = spreadField v name' d := by
  cases v with
  | object props =>
      rw [Value.withField, spreadField, spreadField, List.find?_cons_of_neg (by simpa using h),
        List.find?_filter]
      congr 2
      funext e
      by_cases he : e.1 = name'
      · simp [he, Ne.symm h]
      · simp [he]
  | _ => simp [Value.withField, spreadField, h]

/-- **What the caller says is what the constructor is told**, but for what is replaced on
the way. -/
theorem Way.handed_eq {p : Platform} {provisioned : Completion Value} {opts opts' : Value}
    {way : Way} (h : way.handed p provisioned opts = .ok opts') {name : String}
    (hbinary : "binary" ≠ name) (hsingle : "requireSingleUse" ≠ name)
    (hstore : "nonceStore" ≠ name) :
    opts'.get name = opts.get name ∧
      ∀ d, spreadField opts' name d = spreadField opts name d := by
  have hverifier {v v' : Value} (hv : Verifier.handed p provisioned v = .ok v') :
      v'.get name = v.get name ∧ ∀ d, spreadField v' name d = spreadField v name d := by
    obtain ⟨threshold, -, hv⟩ := bind_eq_ok.mp hv
    obtain ⟨u, -, hv⟩ := bind_eq_ok.mp hv
    have hfield (binary : Value) : (v.withField "binary" binary).get name = v.get name ∧
        ∀ d, spreadField (v.withField "binary" binary) name d = spreadField v name d :=
      ⟨Value.get_withField_of_ne v binary hbinary, fun d =>
        spreadField_withField v binary d hbinary⟩
    by_cases hnullish : (v.get "binary").nullish = true
    · rw [if_pos hnullish] at hv
      obtain ⟨binary, -, hv⟩ := bind_eq_ok.mp hv
      exact Except.ok.inj hv ▸ hfield binary
    · rw [if_neg hnullish] at hv
      exact Except.ok.inj hv ▸ hfield (v.get "binary")
  cases way with
  | service => exact Except.ok.inj h ▸ ⟨rfl, fun _ => rfl⟩
  | verifier => exact hverifier h
  | gate =>
      obtain ⟨u, -, h⟩ := bind_eq_ok.mp h
      obtain ⟨hget, hspread⟩ := hverifier h
      refine ⟨hget.trans (get_verifierOptions hsingle hstore), fun d => ?_⟩
      rw [hspread, verifierOptions, spreadField_withField _ _ _ hstore,
        spreadField_withField _ _ _ hsingle]

/-! ### The call of `spawn` -/

/-- What `spawn` is called with. -/
structure Launch where
  file : Value
  args : List Value
  env : List (String × Value)

/-- The call of `spawn` in `start()`. -/
def launch (p : Platform) (host : HostEnv) (o : ServiceOptions) (env : List (String × Value)) :
    Completion Launch := do
  let address ← VerifierService.address p o
  .ok {
    file := o.binary
    args := [.string "-port", .string address, .string "-circuit_dir", o.circuitDir,
      .string "-cacerts", o.caCerts, .string "-vical_url", o.vicalUrl.orElse (.string "")]
    env := spreadOver (minimalEnv host) env }

/-- The variable of the host that Node's `spawn` hands on to every child, unless the
environment that it is given has one of this name. -/
def propagated : String := "NODE_V8_COVERAGE"

/-- `spawn` leaves out what is `undefined`. -/
def defined : Value → Option Value
  | .undefined => none
  | v => some v

/-- What the child finds under a name in its environment, before it is turned into text. -/
def Launch.finds (host : HostEnv) (l : Launch) (name : String) : Option Value :=
  match ownField l.env name with
  | some v => defined v
  | none => if name = propagated then (host name).map Value.string else none

/-- An environment that was spread over what is kept of the host's. -/
theorem Launch.finds_eq {host : HostEnv} {l : Launch} {env : List (String × Value)}
    (h : l.env = spreadOver (minimalEnv host) env) (name : String) :
    l.finds host name = match ownField env name with
      | some v => defined v
      | none => if name ∈ keep ∨ name = propagated then (host name).map Value.string
        else none := by
  rw [Launch.finds, h, ownField_spreadOver, ownField_minimalEnv]
  cases ownField env name with
  | some v => rfl
  | none =>
      rw [Option.none_or]
      by_cases hkeep : name ∈ keep
      · rw [if_pos hkeep, if_pos (Or.inl hkeep)]
        cases hhost : host name with
        | some v => rfl
        | none => exact ite_self _
      · rw [if_neg hkeep]
        exact if_congr (or_iff_right hkeep).symm rfl rfl

namespace VerifierService

variable {p : Platform} {o : ServiceOptions} {files : Files}

/-- A child has been given an address, and nothing is read before there is a child. -/
structure Addressed (p : Platform) (o : ServiceOptions) (s : VerifierService) : Prop where
  address : s.child = true → ∃ a, VerifierService.address p o = .ok a
  silent : s.child = false → s.log.started = false

theorem Addressed.of_eq {s s' : VerifierService} (h : Addressed p o s)
    (hchild : s'.child = s.child) (hlog : s'.log = s.log) : Addressed p o s' :=
  ⟨fun h' => h.address (hchild ▸ h'), fun h' => by rw [hlog]; exact h.silent (hchild ▸ h')⟩

theorem addressed_step {s s' : VerifierService} {e : Event} (h : Addressed p o s)
    (hstep : step p o files s e = some s') : Addressed p o s' := by
  cases Step.of_step hstep with
  | start created hphase =>
      refine ⟨fun _ => ?_, fun hno => by cases hno⟩
      rw [step, hphase] at hstep
      have hstart := congrArg phase (Option.some.inj hstep)
      rw [VerifierService.start] at hstart
      cases haddress : VerifierService.address p o with
      | ok a => exact ⟨a, rfl⟩
      | error e =>
          rw [haddress] at hstart
          cases hstart
  | unaddressed created e hphase => exact h.of_eq rfl rfl
  | spawnThrows e hphase => exact h.of_eq rfl rfl
  | spawned clock now hphase =>
      have hkept := awaitReady_kept (p := p) (o := o) s clock now
      exact h.of_eq hkept.child hkept.log
  | exit code signal hrunning hphase => exact h.of_eq rfl rfl
  | exitStops code signal e hrunning hphase => exact h.of_eq rfl rfl
  | error code message hchild hphase =>
      exact ⟨fun _ => h.address hchild, fun hno => by cases hno.symm.trans hchild⟩
  | errorRejects code message e hchild hphase hwaiting =>
      exact ⟨fun _ => h.address hchild, fun hno => by cases hno.symm.trans hchild⟩
  | data pipe chunk hchild =>
      exact ⟨fun _ => h.address hchild, fun hno => by cases hno.symm.trans hchild⟩
  | health alive hphase =>
      have hkept := afterProbe_kept (p := p) (o := o) s alive
      exact h.of_eq hkept.child hkept.log
  | wake now hphase =>
      have hkept := (onward_loopTop (p := p) (o := o) s now).kept
      exact h.of_eq hkept.child hkept.log
  | graceOver reason hphase => exact h.of_eq rfl rfl
  | stop => exact h.of_eq rfl rfl

/-- A service that is ready has launched its child. -/
theorem launched_of_run {s : VerifierService} {events : List Event}
    (hrun : exec (step p o files) init events = some s) (hready : s.ready = true)
    (host : HostEnv) (env : List (String × Value)) : ∃ a, launch p host o env = .ok {
      file := o.binary
      args := [.string "-port", .string a, .string "-circuit_dir", o.circuitDir,
        .string "-cacerts", o.caCerts, .string "-vical_url", o.vicalUrl.orElse (.string "")]
      env := spreadOver (minimalEnv host) env } := by
  have haddressed : Addressed p o s :=
    exec_invariant (fun _ _ _ h hstep => addressed_step h hstep) hrun
      ⟨fun h => (by cases h), fun _ => rfl⟩
  have hstarted := (audited_of_run hrun hready).announced
  cases hchild : s.child with
  | false => cases (haddressed.silent hchild).symm.trans hstarted
  | true =>
      obtain ⟨a, ha⟩ := haddressed.address hchild
      exact ⟨a, by rw [launch, ha]; rfl⟩

end VerifierService

/-! ### What is audited -/

/-- What `readdirSync` and `readFileSync` return for a path, and `none` where they throw. -/
structure Shelf where
  listing : Value → Option (List (List Char))
  bundle : Value → Option (List Char)

/-- The files that `start()` counts. -/
def Shelf.files (shelf : Shelf) (o : ServiceOptions) : Files where
  listing := shelf.listing o.circuitDir
  bundle := shelf.bundle o.caCerts

/-- Options for a gate, with a variable for the child. -/
def sampleLaunchOptions : Value :=
  .object [("binary", .string "/opt/verifier"), ("circuitDir", .string "/opt/circuits"),
    ("caCerts", .string "/opt/certs.pem"), ("requireSingleUse", .boolean false),
    ("env", .object [("GOMAXPROCS", .string "4"), ("LANG", .string "C")])]

/-- The elements of a typed array of bytes. -/
def sampleElements (_ : BinaryClass) (data : List UInt8) : List Value :=
  data.map fun b => .ofNat b.toNat

/-- A host with a secret in its environment, that measures coverage. -/
def sampleHostEnv : HostEnv
  | "PATH" => some "/usr/bin"
  | "LANG" => some "de_DE.UTF-8"
  | "DATABASE_URL" => some "postgres://app:secret@db/app"
  | "NODE_V8_COVERAGE" => some "/tmp/coverage"
  | _ => none

end EightEen
