import Orchestration.Client.Registry

/-! What comes of TLS options. Each piece has at most one source, and with a certificate and its key
there is material made of what the sources hold; without both there is none. Anything between is
refused: a piece given twice, one of the two alone, or given in different ways, or a file that can
not be read. -/
namespace Orchestration

namespace TlsSource

inductive Given (value path : Option String) : TlsSource → Prop where
  | text {text} (set : value = some text) (written : Text.isBlankText text = false) :
      Given value path (.text text)
  | file {place} (set : path = some place) (named : place ≠ "") : Given value path (.file place)

inductive Picked (value path : Option String) : Except Error (Option TlsSource) → Prop where
  | chosen {picked} (only : ∀ s, Given value path s ↔ picked = some s) : Picked value path (.ok picked)
  | both {text place reason} (inline : Given value path (.text text))
      (file : Given value path (.file place)) : Picked value path (.error (.config reason))

theorem givenText {value path : Option String} {text : String} :
    Given value path (.text text) ↔ Text.given value = some text := by
  constructor
  · intro given
    cases given with
    | text set written => simp [Text.given, set, written]
  · intro given
    obtain ⟨set, written⟩ := Option.filter_eq_some_iff.1 given
    exact .text set (by simpa using written)

theorem givenFile {value path : Option String} {place : String} :
    Given value path (.file place) ↔ path.filter (fun p => !p.isEmpty) = some place := by
  constructor
  · intro given
    cases given with
    | file set named => simp [set, named]
  · intro given
    obtain ⟨set, named⟩ := Option.filter_eq_some_iff.1 given
    exact .file set (by simpa using named)

theorem pickPicked (piece : String) (value path : Option String) :
    Picked value path (pick piece value path) := by
  rw [pick]
  cases text : Text.given value <;> cases file : path.filter fun p => !p.isEmpty
  case some.some => exact .both (givenText.2 text) (givenFile.2 file)
  all_goals
    refine .chosen fun s => ?_
    cases s <;> simp [givenText, givenFile, text, file]

inductive Yields (read : String → Except SystemFault ByteArray) : TlsSource → ByteArray → Prop where
  | text {value} : Yields read (.text value) value.toUTF8
  | file {place bytes} (holds : read place = .ok bytes) : Yields read (.file place) bytes

inductive Loaded (read : String → Except SystemFault ByteArray) (s : TlsSource) :
    Except Error ByteArray → Prop where
  | whole {bytes} (yields : s.Yields read bytes) : Loaded read s (.ok bytes)
  | unread {place fault reason} (file : s = .file place) (fails : read place = .error fault) :
      Loaded read s (.error (.config reason))

theorem loadLoaded (read : String → Except SystemFault ByteArray) (piece : String) (s : TlsSource) :
    Loaded read s (s.load read piece) := by
  cases s with
  | text value => exact .whole .text
  | file place =>
    rw [load]
    cases held : read place with
    | ok bytes => exact .whole (.file held)
    | error fault => exact .unread rfl held

end TlsSource

inductive TlsPiece where
  | certificate
  | key
  | rootCa
  deriving DecidableEq, Repr

namespace TlsOptions
open TlsSource

def Gives (o : TlsOptions) (piece : TlsPiece) : TlsSource → Prop :=
  match piece with
  | .certificate => Given o.cert o.certFile
  | .key => Given o.key o.keyFile
  | .rootCa => Given o.rootCa o.rootCaFile

def Has (o : TlsOptions) (piece : TlsPiece) : Prop := ∃ s, o.Gives piece s

def Doubled (o : TlsOptions) (piece : TlsPiece) : Prop :=
  ∃ text place, o.Gives piece (.text text) ∧ o.Gives piece (.file place)

section
variable (o : TlsOptions) (read : String → Except SystemFault ByteArray)

inductive Unfit : Prop where
  | doubled {piece} (twice : o.Doubled piece)
  | alone (single : o.Has .certificate ↔ ¬ o.Has .key)
  | mixed {text place} (apart : o.Gives .certificate (.text text) ∧ o.Gives .key (.file place) ∨
      o.Gives .certificate (.file place) ∧ o.Gives .key (.text text))
  | unreadable {piece place fault} (certificate : o.Has .certificate) (key : o.Has .key)
      (chosen : o.Gives piece (.file place)) (unread : read place = .error fault)

structure Off : Prop where
  single : ∀ piece, ¬ o.Doubled piece
  certificate : ¬ o.Has .certificate
  key : ¬ o.Has .key

structure Supplies (m : TlsMaterial) : Prop where
  certificate : ∃ s, o.Gives .certificate s ∧ s.Yields read m.clientCert
  key : ∃ s, o.Gives .key s ∧ s.Yields read m.clientKey
  rootCa : ∀ bytes, m.rootCa = some bytes → ∃ s, o.Gives .rootCa s ∧ s.Yields read bytes
  noRoot : m.rootCa = Option.none ↔ ¬ o.Has .rootCa
  serverName : ∀ name, m.serverName = some name ↔
    ∃ given, o.serverName = some given ∧ Text.isBlankText given = false ∧ name = Text.trim given

inductive Resolved : Except Error (Option TlsMaterial) → Prop where
  | refused {reason} (unfit : o.Unfit read) : Resolved (.error (.config reason))
  | off (off : o.Off) : Resolved (.ok Option.none)
  | on {m} (fit : ¬ o.Unfit read) (supplies : o.Supplies read m) : Resolved (.ok (some m))

end

structure Chosen (o : TlsOptions) (certificate key rootCa : Option TlsSource) : Prop where
  certificate : ∀ s, o.Gives .certificate s ↔ certificate = some s
  key : ∀ s, o.Gives .key s ↔ key = some s
  rootCa : ∀ s, o.Gives .rootCa s ↔ rootCa = some s

section
variable {o : TlsOptions} {read : String → Except SystemFault ByteArray}

theorem Chosen.single {certificate key rootCa : Option TlsSource}
    (chosen : o.Chosen certificate key rootCa) (piece : TlsPiece) : ¬ o.Doubled piece := by
  have one {picked : Option TlsSource} {text place : String} (first : picked = some (.text text))
      (second : picked = some (.file place)) : False := by
    cases first.symm.trans second
  intro twice
  obtain ⟨text, place, inline, file⟩ := twice
  cases piece with
  | certificate => exact one ((chosen.certificate _).1 inline) ((chosen.certificate _).1 file)
  | key => exact one ((chosen.key _).1 inline) ((chosen.key _).1 file)
  | rootCa => exact one ((chosen.rootCa _).1 inline) ((chosen.rootCa _).1 file)

theorem Chosen.none {certificate key rootCa : Option TlsSource}
    (chosen : o.Chosen certificate key rootCa) : (certificate = Option.none ↔ ¬ o.Has .certificate) ∧
      (key = Option.none ↔ ¬ o.Has .key) ∧ (rootCa = Option.none ↔ ¬ o.Has .rootCa) := by
  simp only [Has, chosen.certificate, chosen.key, chosen.rootCa, Option.eq_none_iff_forall_ne_some,
    not_exists, ne_eq, and_self]

theorem Chosen.mixed {s t : TlsSource} {rootCa : Option TlsSource}
    (chosen : o.Chosen (some s) (some t) rootCa) (apart : s.isFile ≠ t.isFile) : o.Unfit read := by
  have certificate := (chosen.certificate s).2 rfl
  have key := (chosen.key t).2 rfl
  cases s with
  | text text =>
    cases t with
    | text other => exact absurd rfl apart
    | file place => exact .mixed (.inl ⟨certificate, key⟩)
  | file place =>
    cases t with
    | text text => exact .mixed (.inr ⟨certificate, key⟩)
    | file other => exact absurd rfl apart

theorem readYields {s : TlsSource} {place : String} {fault : SystemFault} {bytes : ByteArray}
    (file : s = .file place) (unread : read place = .error fault) : ¬ s.Yields read bytes := by
  subst file
  intro yields
  cases yields with
  | file holds => cases holds.symm.trans unread

theorem serverNameGiven (name : String) : (Text.given o.serverName).map Text.trim = some name ↔
    ∃ given, o.serverName = some given ∧ Text.isBlankText given = false ∧ name = Text.trim given := by
  constructor
  · intro named
    obtain ⟨given, filtered, rfl⟩ := Option.map_eq_some_iff.1 named
    obtain ⟨set, written⟩ := Option.filter_eq_some_iff.1 filtered
    exact ⟨given, set, by simpa using written, rfl⟩
  · intro named
    obtain ⟨given, set, written, rfl⟩ := named
    exact Option.map_eq_some_iff.2 ⟨given, Option.filter_eq_some_iff.2 ⟨set, by simp [written]⟩, rfl⟩

theorem Chosen.fit {s t : TlsSource} {rootCa : Option TlsSource}
    (chosen : o.Chosen (some s) (some t) rootCa) (alike : s.isFile = t.isFile)
    {certificate key : ByteArray} (first : s.Yields read certificate) (second : t.Yields read key)
    (third : ∀ r, rootCa = some r → ∃ bytes, r.Yields read bytes) : ¬ o.Unfit read := by
  have has : o.Has .certificate ∧ o.Has .key := ⟨⟨s, (chosen.certificate s).2 rfl⟩, t, (chosen.key t).2 rfl⟩
  intro unfit
  cases unfit with
  | @doubled piece twice => exact chosen.single piece twice
  | alone single => exact single.1 has.1 has.2
  | mixed apart =>
    obtain ⟨one, other⟩ | ⟨one, other⟩ := apart
    all_goals
      cases (chosen.certificate _).1 one
      cases (chosen.key _).1 other
      cases alike
  | @unreadable piece place fault _ _ given unread =>
    cases piece with
    | certificate => exact readYields (Option.some.inj ((chosen.certificate _).1 given)) unread first
    | key => exact readYields (Option.some.inj ((chosen.key _).1 given)) unread second
    | rootCa =>
      obtain ⟨bytes, yields⟩ := third _ ((chosen.rootCa _).1 given)
      exact readYields rfl unread yields

def fromSources (o : TlsOptions) (read : String → Except SystemFault ByteArray) (s t : TlsSource)
    (root : Option TlsSource) : Except Error (Option TlsMaterial) := do
  let certificate ← s.load read certName
  let key ← t.load read keyName
  let rootCa ← match root with
    | some r => (r.load read rootName).map some
    | Option.none => pure Option.none
  pure (some ⟨certificate, key, rootCa, (Text.given o.serverName).map Text.trim⟩)

theorem Chosen.fromSources {s t : TlsSource} {root : Option TlsSource}
    (chosen : o.Chosen (some s) (some t) root) (alike : s.isFile = t.isFile) :
    o.Resolved read (o.fromSources read s t root) := by
  have certificateGiven := (chosen.certificate s).2 rfl
  have keyGiven := (chosen.key t).2 rfl
  have unread {piece : TlsPiece} {source : TlsSource} {place : String} {fault : SystemFault}
      (gives : o.Gives piece source) (file : source = .file place) (fails : read place = .error fault) :
      o.Unfit read := .unreadable ⟨s, certificateGiven⟩ ⟨t, keyGiven⟩ (file ▸ gives) fails
  have certificates := loadLoaded read certName s
  have keys := loadLoaded read keyName t
  rw [TlsOptions.fromSources]
  generalize load read certName s = certificate at certificates ⊢
  generalize load read keyName t = key at keys ⊢
  cases certificates with
  | unread file fails => exact .refused (unread certificateGiven file fails)
  | whole certificate =>
  cases keys with
  | unread file fails => exact .refused (unread keyGiven file fails)
  | whole key =>
  cases root with
  | none =>
    have bare : ¬ o.Has .rootCa := chosen.none.2.2.1 rfl
    exact .on (chosen.fit alike certificate key nofun) ⟨⟨s, certificateGiven, certificate⟩,
      ⟨t, keyGiven, key⟩, nofun, iff_of_true rfl bare, serverNameGiven⟩
  | some r =>
    have rootGiven := (chosen.rootCa r).2 rfl
    have roots := loadLoaded read rootName r
    dsimp only
    generalize load read rootName r = root at roots ⊢
    cases roots with
    | unread file fails => exact .refused (unread rootGiven file fails)
    | @whole bytes yields =>
      refine .on (chosen.fit alike certificate key fun other same => ?_) ⟨⟨s, certificateGiven, certificate⟩,
        ⟨t, keyGiven, key⟩, fun other same => ?_, ?_, serverNameGiven⟩
      · cases same
        exact ⟨bytes, yields⟩
      · cases same
        exact ⟨r, rootGiven, yields⟩
      · exact iff_of_false nofun (not_not_intro ⟨r, rootGiven⟩)

end

theorem resolveResolved (o : TlsOptions) (read : String → Except SystemFault ByteArray) :
    o.Resolved read (o.resolve read) := by
  have certificates := pickPicked certName o.cert o.certFile
  have keys := pickPicked keyName o.key o.keyFile
  have roots := pickPicked rootName o.rootCa o.rootCaFile
  rw [resolve]
  generalize pick certName o.cert o.certFile = certificate at certificates ⊢
  generalize pick keyName o.key o.keyFile = key at keys ⊢
  generalize pick rootName o.rootCa o.rootCaFile = root at roots ⊢
  cases certificates with
  | both inline file => exact .refused (@Unfit.doubled _ _ .certificate ⟨_, _, inline, file⟩)
  | @chosen certificate certificates =>
  cases keys with
  | both inline file => exact .refused (@Unfit.doubled _ _ .key ⟨_, _, inline, file⟩)
  | @chosen key keys =>
  cases roots with
  | both inline file => exact .refused (@Unfit.doubled _ _ .rootCa ⟨_, _, inline, file⟩)
  | @chosen root roots =>
  have chosen : o.Chosen certificate key root := ⟨certificates, keys, roots⟩
  obtain ⟨noCertificate, noKey, -⟩ := chosen.none
  cases certificate with
  | none =>
    cases key with
    | none => exact .off ⟨chosen.single, noCertificate.1 rfl, noKey.1 rfl⟩
    | some t => exact .refused (.alone (iff_of_false (noCertificate.1 rfl) (not_not_intro ⟨t, (keys t).2 rfl⟩)))
  | some s =>
    cases key with
    | none => exact .refused (.alone (iff_of_true ⟨s, (certificates s).2 rfl⟩ (noKey.1 rfl)))
    | some t =>
      by_cases alike : s.isFile = t.isFile
      · have supplied : o.Resolved read (o.fromSources read s t root) := chosen.fromSources alike
        cases root <;>
          simpa only [fromSources, bind, Except.bind, ne_eq, alike, not_true_eq_false, if_false] using supplied
      · have refused : o.Unfit read := chosen.mixed alike
        simpa only [bind, Except.bind, ne_eq, alike, not_false_eq_true, if_true] using .refused refused

theorem Off.fit {o : TlsOptions} {read : String → Except SystemFault ByteArray} (off : o.Off) :
    ¬ o.Unfit read := by
  intro unfit
  cases unfit with
  | @doubled piece twice => exact off.single piece twice
  | alone single => exact off.certificate (single.2 off.key)
  | mixed apart =>
    obtain ⟨one, -⟩ | ⟨one, -⟩ := apart
    · exact off.certificate ⟨_, one⟩
    · exact off.certificate ⟨_, one⟩
  | unreadable certificate => exact off.certificate certificate

theorem Resolved.answers {o : TlsOptions} {read : String → Except SystemFault ByteArray}
    {result : Except Error (Option TlsMaterial)} (resolved : o.Resolved read result) :
    ((∃ e, result = .error e) ↔ o.Unfit read) ∧ (∀ e, result = .error e → ∃ reason, e = .config reason) ∧
    (result = .ok Option.none ↔ o.Off) ∧
    (o.Unfit read ∨ o.Off ∨ ∃ m, result = .ok (some m) ∧ o.Supplies read m) := by
  cases resolved with
  | @refused reason unfit =>
    exact ⟨iff_of_true ⟨_, rfl⟩ unfit, fun e same => ⟨reason, (Except.error.inj same).symm⟩,
      iff_of_false nofun fun off => off.fit unfit, .inl unfit⟩
  | off off => exact ⟨iff_of_false nofun off.fit, nofun, iff_of_true rfl off, .inr (.inl off)⟩
  | @on m fit supplies =>
    refine ⟨iff_of_false nofun fit, nofun, iff_of_false nofun fun off => ?_, .inr (.inr ⟨m, rfl, supplies⟩)⟩
    obtain ⟨s, given, -⟩ := supplies.certificate
    exact off.certificate ⟨s, given⟩

theorem ofOptionsResolved {η : Type} (options : ClientOptions) (machine : Machine)
    (read : String → Except SystemFault ByteArray) :
    let built : Except Error (ClientRegistry η) := ClientRegistry.ofOptions options machine read
    ((∃ e, built = .error e) ↔
      Text.isBlankText options.defaultQueue = true ∨ ∃ e, options.tls.resolve read = .error e) ∧
    ∀ registry, built = .ok registry → options.tls.resolve read = .ok registry.tls := by
  dsimp only
  rw [ClientRegistry.ofOptions]
  by_cases blank : Text.isBlankText options.defaultQueue = true
  · rw [if_pos blank]
    exact ⟨iff_of_true ⟨_, rfl⟩ (.inl blank), fun registry built => by cases built⟩
  · rw [if_neg blank]
    cases options.tls.resolve read with
    | error e =>
      rw [Except.map]
      exact ⟨iff_of_true ⟨e, rfl⟩ (.inr ⟨e, rfl⟩), fun registry built => by cases built⟩
    | ok tls =>
      rw [Except.map]
      refine ⟨iff_of_false nofun (not_or_intro blank nofun), fun registry built => ?_⟩
      rw [← Except.ok.inj built]

/-- What options are resolved to, for every content of the files: they are refused exactly when they
are unfit, there is no material exactly when nothing is given twice and neither a certificate nor a
key is given, and all else gives the material that the options supply. A client registry comes about
with that very material, and fails with the options or for a blank default queue. -/
theorem resolvedExactly (o : TlsOptions) (read : String → Except SystemFault ByteArray) :
    ((∃ e, o.resolve read = .error e) ↔ o.Unfit read) ∧
    (∀ e, o.resolve read = .error e → ∃ reason, e = .config reason) ∧
    (o.resolve read = .ok Option.none ↔ o.Off) ∧
    (o.Unfit read ∨ o.Off ∨ ∃ m, o.resolve read = .ok (some m) ∧ o.Supplies read m) ∧
    ∀ {η : Type} (options : ClientOptions) (machine : Machine), options.tls = o →
      let built : Except Error (ClientRegistry η) := ClientRegistry.ofOptions options machine read
      ((∃ e, built = .error e) ↔
        Text.isBlankText options.defaultQueue = true ∨ ∃ e, o.resolve read = .error e) ∧
      ∀ registry, built = .ok registry → o.resolve read = .ok registry.tls := by
  obtain ⟨fails, refused, off, supplies⟩ := (o.resolveResolved read).answers
  refine ⟨fails, refused, off, supplies, fun options machine same => ?_⟩
  subst same
  exact ofOptionsResolved options machine read

end TlsOptions
end Orchestration
