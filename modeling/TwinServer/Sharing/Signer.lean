-- SUMMARY: The key of the dataset signer: any number of initialisations on one key file, and what each of them obtains.
import TwinServer.Base.Links
import TwinServer.Base.Serial
import TwinServer.Base.Steps
import TwinServer.Connectors.AiAnalysis
import TwinServer.Storage.Providers

/-!
# The dataset signer

`initialize` of `src/sharing/dataset-signing.ts` reads the key file, and where there is none makes one: the record
of a new key is written to a file of its own, which is then linked under the name of the key file, unless another
initialisation was faster. Initialisations run in any number of processes, stop at any await, and any of their
operations may fail.
-/

open Js Js.Json Storage Links

namespace Sharing

namespace DatasetSigner

/-! ## Identities -/

/-- The parts of a private key that the signer uses: its type, and its public key as bytes. -/
structure KeyObject where
  asymmetricKeyType : String
  der : Bytes

structure DatasetSigningIdentity where
  issuer : String
  network : String
  keyId : String
  publicKey : String
  createdAt : Option Json

/-- What the platform supplies; `none` is a thrown error. -/
structure Platform where
  parseUrl : String → Option Ai.Url
  parse : String → Option Json
  /-- `Date.parse(v)`. -/
  parseDate : Option Json → Option Number
  createPrivateKey : Option Json → Option KeyObject
  sha256 : Bytes → String
  base64 : Bytes → String

/-- An error with a message of the signer, or one of the platform. -/
inductive SignerError where
  | error (message : String)
  | platform

/-- The options of a signer without the key file. -/
structure Options where
  issuer : String
  network : String

/-- The options as `initialize` reads them: the issuer is without the slash at its end. -/
def Options.read (o : Options) : Options := { o with issuer := FilesystemStorageConfig.stripSlash o.issuer }

variable (p : Platform)

/-- The check of the options. -/
def checkOptions (o : Options) : Except SignerError Unit :=
  match p.parseUrl o.issuer with
  | none => .error .platform
  | some url =>
    if url.protocol ≠ "https:" || url.username ≠ "" || url.password ≠ "" || url.search ≠ "" || url.hash ≠ "" ||
        !(["testnet", "mainnet"].contains o.network) then
      .error (.error "Invalid dataset signing identity configuration")
    else .ok ()

/-- A property that is a text, or none. -/
def isText (text : String) (v : Option Json) : Bool := v.any (·.strictEq (.string text))

def identityOf (o : Options) (key : KeyObject) (createdAt : Option Json) : DatasetSigningIdentity :=
  { issuer := o.issuer, network := o.network, keyId := "sha256:" ++ p.sha256 key.der, publicKey := p.base64 key.der
    createdAt }

/-- What the signer makes of a stored record. -/
def identify (o : Options) (stored : Json) : Except SignerError DatasetSigningIdentity := do
  if stored matches .null then throw .platform
  if !(stored.get? "version").any (·.strictEq (.number 1)) || !isText o.issuer (stored.get? "issuer") ||
      !isText o.network (stored.get? "network") then throw (.error "Dataset signing key identity mismatch")
  match p.parseDate (stored.get? "createdAt"), p.createPrivateKey (stored.get? "privateKey") with
  | none, _ => throw .platform
  | some date, key =>
    if !date.isFinite then throw (.error "Dataset signing key identity mismatch")
    match key with
    | none => throw .platform
    | some key =>
      if key.asymmetricKeyType ≠ "ed25519" then throw (.error "Dataset signing key must use Ed25519")
      return identityOf p o key (stored.get? "createdAt")

/-- A key pair that is generated, with the text of its private key, and the time and the identifier that go with
it. The text is the key, and the time is one. -/
structure Generated where
  key : KeyObject
  privateKey : String
  createdAt : String
  uuid : String
  read : p.createPrivateKey (some (.string privateKey)) = some key
  type : key.asymmetricKeyType = "ed25519"
  date : ∃ t, p.parseDate (some (.string createdAt)) = some t ∧ t.isFinite

def record (o : Options) (g : Generated p) : Json :=
  .object [("version", .number 1), ("issuer", .string o.issuer), ("network", .string o.network),
    ("createdAt", .string g.createdAt), ("privateKey", .string g.privateKey)]

/-! ## Initialisations -/

/-- A file that was there before, or one that an initialisation makes. -/
inductive Inode where
  | before (n : Nat)
  | made (task : Nat)
  deriving DecidableEq

/-- The operation an initialisation awaits. -/
inductive Phase where
  | reading
  | making
  | opening (uuid text : String)
  | writing (uuid text : String)
  | syncing (uuid text : String)
  | closing (uuid text : String)
  | linking (uuid text : String)
  /-- The `close` and the `unlink` of the end, and then whether an error is thrown. -/
  | releasing (uuid : String) (failed : Bool)
  | unlinking (uuid : String) (failed : Bool)
  | rereading
  | ready (identity : DatasetSigningIdentity)
  | failed (e : SignerError)

structure Task where
  options : Options
  phase : Phase

/-- How an operation ends: it is done, it fails for a reason of its own, or a part of a file is written. Before a
file is made, a key is generated. -/
inductive Answer where
  | done
  | fails
  | part (text : String)
  | generated (g : Generated p)

structure System where
  disk : Disk Inode
  tasks : Nat → Option Task

/-- An initialisation starts, or goes on. -/
inductive Event where
  | start (task : Nat) (options : Options)
  | resume (task : Nat) (answer : Answer p)

section
variable {p} (keyFile : String)

/-- The file in which a record is written before it is linked. -/
def tempFile (uuid : String) : String := keyFile ++ "." ++ uuid ++ ".tmp"

/-- The rest of an initialisation, after the content of the key file was read. -/
@[local grind] def settle (p : Platform) (o : Options) (invalid : SignerError) (text : String) : Phase :=
  match p.parse text with
  | none => .failed invalid
  | some stored =>
    match identify p o stored with
    | .ok identity => .ready identity
    | .error e => .failed e

variable [Runtime]

/-- An initialisation goes on until its next await. -/
@[local grind]
def advance (task : Nat) (o : Options) (d : Disk Inode) : Phase → Answer p → Option (Disk Inode × Phase)
  | .reading, .done => some (d, match d.read keyFile with
    | some text => settle p o (.error "Dataset signing key unavailable or invalid") text
    | none => .making)
  | .reading, .fails => some (d, .failed (.error "Dataset signing key unavailable or invalid"))
  | .making, .generated g => some (d, .opening g.uuid (stringify (record p o g)))
  | .making, .fails => some (d, .failed .platform)
  | .opening uuid text, .done =>
    some (match d.names (tempFile keyFile uuid) with
    | some _ => (d, .failed .platform)
    | none => (d.create (tempFile keyFile uuid) (.made task), .writing uuid text))
  | .opening _ _, .fails => some (d, .failed .platform)
  | .writing uuid text, .part t =>
    if startsWith text t then some (d.write (.made task) t, .writing uuid text) else none
  | .writing uuid text, .done => some (d.write (.made task) text, .syncing uuid text)
  | .writing uuid _, .fails => some (d, .releasing uuid true)
  | .syncing uuid text, .done => some (d, .closing uuid text)
  | .syncing uuid _, .fails => some (d, .releasing uuid true)
  | .closing uuid text, .done => some (d, .linking uuid text)
  | .closing uuid _, .fails => some (d, .releasing uuid true)
  | .linking uuid _, .done =>
    some (match d.names (tempFile keyFile uuid), d.names keyFile with
    | none, _ => (d, .releasing uuid true)
    -- `EEXIST` is no error
    | some _, some _ => (d, .releasing uuid false)
    | some i, none => (d.link i keyFile, .releasing uuid false))
  | .linking uuid _, .fails => some (d, .releasing uuid true)
  | .releasing uuid failed, .done => some (d, .unlinking uuid failed)
  | .releasing uuid failed, .fails => some (d, .unlinking uuid failed)
  | .unlinking uuid failed, .done =>
    some (d.unlink (tempFile keyFile uuid), if failed then .failed .platform else .rereading)
  | .unlinking _ failed, .fails => some (d, if failed then .failed .platform else .rereading)
  | .rereading, .done => some (d, match d.read keyFile with
    | some text => settle p o .platform text
    | none => .failed .platform)
  | .rereading, .fails => some (d, .failed .platform)
  | _, _ => none

@[local grind] def step (s : System) : Event p → Option System
  | .start task o =>
    match s.tasks task with
    | some _ => none
    | none => some { s with tasks := Function.update s.tasks task (some ⟨o.read, match checkOptions p o.read with
        | .ok () => .reading
        | .error e => .failed e⟩) }
  | .resume task answer => do
    let t ← s.tasks task
    let (disk, phase) ← advance keyFile task t.options s.disk t.phase answer
    return ⟨disk, Function.update s.tasks task (some ⟨t.options, phase⟩)⟩

/-- The system before its first initialisation, on a disk. -/
def initial (d : Disk Nat) : System where
  disk := { names := fun name => (d.names name).map .before
            contents := fun
              | .before n => d.contents n
              | .made _ => "" }
  tasks _ := none

end

/-! ## What an initialisation holds -/

section
variable {p} (keyFile : String)

/-- The content is a record that its own signer obtains a key of. -/
def Complete (p : Platform) (text : String) : Prop :=
  ∃ o stored identity, p.parse text = some stored ∧ identify p o stored = .ok identity

/-- The identifier of the file that an initialisation made and did not remove yet. -/
def Phase.uuid? : Phase → Option String
  | .writing uuid _ => some uuid
  | .syncing uuid _ => some uuid
  | .closing uuid _ => some uuid
  | .linking uuid _ => some uuid
  | .releasing uuid _ => some uuid
  | .unlinking uuid _ => some uuid
  | _ => none

/-- The text an initialisation means to write. -/
def Phase.text? : Phase → Option String
  | .opening _ text => some text
  | .writing _ text => some text
  | .syncing _ text => some text
  | .closing _ text => some text
  | .linking _ text => some text
  | _ => none

/-- The text is written. -/
def Phase.isWritten : Phase → Bool
  | .syncing _ _ => true
  | .closing _ _ => true
  | .linking _ _ => true
  | _ => false

/-- The file of the initialisation is not written any more. -/
def Phase.isReleased : Phase → Bool
  | .releasing _ _ => true
  | .unlinking _ _ => true
  | .rereading => true
  | .ready _ => true
  | .failed _ => true
  | _ => false

/-- What holds of an initialisation on the disk. -/
structure Holds (p : Platform) (keyFile : String) (d : Disk Inode) (k : Nat) (o : Options) (phase : Phase) :
    Prop where
  named : ∀ uuid, phase.uuid? = some uuid → d.names (tempFile keyFile uuid) = some (.made k)
  complete : ∀ text, phase.text? = some text → Complete p text
  written : ∀ text, phase.isWritten → phase.text? = some text → d.contents (.made k) = text
  ready : ∀ identity, phase = .ready identity → ∃ text stored, d.read keyFile = some text ∧
    p.parse text = some stored ∧ identify p o stored = .ok identity

variable {keyFile}

theorem tempFile_ne (keyFile uuid : String) : tempFile keyFile uuid ≠ keyFile := by
  intro h
  have hlength := congrArg String.length h
  simp only [tempFile, String.length_append] at hlength
  have : ".tmp".length = 4 := rfl
  omega

/-- What a step of an initialisation may do to the disk: it writes no file but its own, and that one only until it
is released; it removes no name but that of its own file; and it links its own file under the name of the key
file only when that name is free, and the file complete. -/
structure Effect (p : Platform) (keyFile : String) (k : Nat) (released : Bool) (d d' : Disk Inode) (phase : Phase) :
    Prop where
  contents : ∀ i, i ≠ .made k ∨ released → d'.contents i = d.contents i
  names : ∀ name i, name ≠ keyFile → d.names name = some i → i ≠ .made k → d'.names name = some i
  key : d'.names keyFile = d.names keyFile ∨ d.names keyFile = none ∧ d'.names keyFile = some (.made k) ∧
    phase.isReleased ∧ Complete p (d'.contents (.made k))
  released : released → phase.isReleased

theorem Effect.refl {k : Nat} {released : Bool} {d : Disk Inode} {phase : Phase} (h : released → phase.isReleased) :
    Effect p keyFile k released d d phase where
  contents _ _ := rfl
  names _ _ _ h _ := h
  key := .inl rfl
  released := h

section
variable {d : Disk Inode} {k : Nat} {uuid text : String} {released : Bool} {phase : Phase}

theorem Effect.create (hfree : d.names (tempFile keyFile uuid) = none) :
    Effect p keyFile k false d (d.create (tempFile keyFile uuid) (.made k)) phase where
  contents i hi := by
    rw [Disk.contents_create, if_neg (hi.resolve_right nofun)]
  names name i _ hname _ := by
    have hne : name ≠ tempFile keyFile uuid := by
      rintro rfl
      rw [hfree] at hname
      cases hname
    rw [Disk.names_create, if_neg hne, hname]
  key := .inl (by rw [Disk.names_create, if_neg (tempFile_ne keyFile uuid).symm])
  released := nofun

theorem Effect.write (text : String) : Effect p keyFile k false d (d.write (.made k) text) phase where
  contents i hi := by
    rw [Disk.contents_write, if_neg (hi.resolve_right nofun)]
  names _ _ _ hname _ := hname
  key := .inl rfl
  released := nofun

theorem Effect.link (hfree : d.names keyFile = none) (hcomplete : Complete p (d.contents (.made k)))
    (hreleased : phase.isReleased) : Effect p keyFile k released d (d.link (.made k) keyFile) phase where
  contents _ _ := rfl
  names name i hne hname _ := by rw [Disk.names_link, if_neg hne, hname]
  key := .inr ⟨hfree, by rw [Disk.names_link, if_pos rfl], hreleased, hcomplete⟩
  released _ := hreleased

theorem Effect.unlink (hnamed : d.names (tempFile keyFile uuid) = some (.made k)) (hreleased : phase.isReleased) :
    Effect p keyFile k released d (d.unlink (tempFile keyFile uuid)) phase where
  contents _ _ := rfl
  names name i _ hname hi := by
    have hne : name ≠ tempFile keyFile uuid := by
      rintro rfl
      exact hi (Option.some.inj (hname.symm.trans hnamed))
    rw [Disk.names_unlink, if_neg hne, hname]
  key := .inl (by rw [Disk.names_unlink, if_neg (tempFile_ne keyFile uuid).symm])
  released _ := hreleased

end

theorem Phase.isReleased_settle (o : Options) (invalid : SignerError) (text : String) :
    (settle p o invalid text).isReleased := by
  unfold settle
  split
  · rfl
  · split
    · rfl
    · rfl

section
variable {d : Disk Inode} {k : Nat} {o : Options}

theorem holds_failed (e : SignerError) : Holds p keyFile d k o (.failed e) := ⟨nofun, nofun, nofun, nofun⟩

/-- An initialisation that is about to end holds the name of its file. -/
theorem holds_ending {uuid : String} {phase : Phase} (hnamed : d.names (tempFile keyFile uuid) = some (.made k))
    (hphase : (∃ failed, phase = .releasing uuid failed) ∨ ∃ failed, phase = .unlinking uuid failed) :
    Holds p keyFile d k o phase := by
  rcases hphase with ⟨failed, rfl⟩ | ⟨failed, rfl⟩ <;>
  · refine ⟨fun uuid' h => ?_, nofun, nofun, nofun⟩
    obtain rfl := Option.some.inj h
    exact hnamed

theorem holds_settle {invalid : SignerError} {text : String} (hread : d.read keyFile = some text) :
    Holds p keyFile d k o (settle p o invalid text) := by
  unfold settle
  split
  case h_1 => exact holds_failed invalid
  case h_2 stored hparse =>
    split
    case h_1 identity hidentify =>
      refine ⟨nofun, nofun, nofun, fun identity' h => ?_⟩
      obtain rfl := Phase.ready.inj h
      exact ⟨text, stored, hread, hparse, hidentify⟩
    case h_2 e _ => exact holds_failed e

end

variable [Runtime]

/-- The record of a generated key is read as the identity of the key. -/
theorem identify_record (hreads : Reads p.parse) (o : Options) (g : Generated p) :
    p.parse (stringify (record p o g)) = some (record p o g) ∧
      identify p o (record p o g) = .ok (identityOf p o g.key (some (.string g.createdAt))) := by
  obtain ⟨t, hdate, hfinite⟩ := g.date
  have hwritten : written (record p o g) = record p o g := by
    have hone : Number.isFinite 1 = true := rfl
    simp [record, written, writtenMembers, hone]
  have hidentify : identify p o (record p o g) = .ok (identityOf p o g.key (some (.string g.createdAt))) := by
    have hone : (1 : Number) ≠ .nan := Number.ofNat_ne_nan 1
    simp [identify, isText, record, Json.get?, Record.get?_cons, strictEq, hdate, hfinite, g.read, g.type, hone]
    rfl
  exact ⟨(hreads _).trans (congrArg some hwritten), hidentify⟩

theorem complete_record (hreads : Reads p.parse) (o : Options) (g : Generated p) :
    Complete p (stringify (record p o g)) := by
  obtain ⟨hparse, hidentify⟩ := identify_record hreads o g
  exact ⟨o, record p o g, _, hparse, hidentify⟩

section
variable {d d' : Disk Inode} {k : Nat} {o : Options} {phase phase' : Phase} {answer : Answer p}

/-- A step of an initialisation keeps what holds of it, and has no other effects. -/
theorem advance_spec (hreads : Reads p.parse) (h : advance keyFile k o d phase answer = some (d', phase'))
    (ht : Holds p keyFile d k o phase) :
    Holds p keyFile d' k o phase' ∧ Effect p keyFile k phase.isReleased d d' phase' := by
  cases phase with
  | reading =>
    cases answer with
    | done =>
      obtain ⟨rfl, rfl⟩ := Prod.mk.inj (Option.some.inj h)
      refine ⟨?_, .refl nofun⟩
      split
      case h_1 text hread => exact holds_settle hread
      case h_2 => exact ⟨nofun, nofun, nofun, nofun⟩
    | fails =>
      obtain ⟨rfl, rfl⟩ := Prod.mk.inj (Option.some.inj h)
      exact ⟨holds_failed _, .refl nofun⟩
    | part t => cases h
    | generated g => cases h
  | making =>
    cases answer with
    | generated g =>
      obtain ⟨rfl, rfl⟩ := Prod.mk.inj (Option.some.inj h)
      refine ⟨⟨nofun, fun text htext => ?_, nofun, nofun⟩, .refl nofun⟩
      obtain rfl := Option.some.inj htext
      exact complete_record hreads o g
    | fails =>
      obtain ⟨rfl, rfl⟩ := Prod.mk.inj (Option.some.inj h)
      exact ⟨holds_failed _, .refl nofun⟩
    | done => cases h
    | part t => cases h
  | opening uuid text =>
    cases answer with
    | done =>
      have h := Option.some.inj h
      split at h
      case h_1 =>
        obtain ⟨rfl, rfl⟩ := Prod.mk.inj h
        exact ⟨holds_failed _, .refl nofun⟩
      case h_2 hfree =>
        obtain ⟨rfl, rfl⟩ := Prod.mk.inj h
        refine ⟨⟨fun uuid' h => ?_, ht.complete, nofun, nofun⟩, .create hfree⟩
        obtain rfl := Option.some.inj h
        rw [Disk.names_create, if_pos rfl]
    | fails =>
      obtain ⟨rfl, rfl⟩ := Prod.mk.inj (Option.some.inj h)
      exact ⟨holds_failed _, .refl nofun⟩
    | part t => cases h
    | generated g => cases h
  | writing uuid text =>
    cases answer with
    | part t =>
      obtain ⟨-, h⟩ := Option.ite_none_right_eq_some.mp h
      obtain ⟨rfl, rfl⟩ := Prod.mk.inj (Option.some.inj h)
      exact ⟨⟨ht.named, ht.complete, nofun, nofun⟩, .write t⟩
    | done =>
      obtain ⟨rfl, rfl⟩ := Prod.mk.inj (Option.some.inj h)
      refine ⟨⟨ht.named, ht.complete, fun text' _ h => ?_, nofun⟩, .write text⟩
      obtain rfl := Option.some.inj h
      rw [Disk.contents_write, if_pos rfl]
    | fails =>
      obtain ⟨rfl, rfl⟩ := Prod.mk.inj (Option.some.inj h)
      exact ⟨holds_ending (ht.named uuid rfl) (.inl ⟨_, rfl⟩), .refl nofun⟩
    | generated g => cases h
  | syncing uuid text =>
    cases answer with
    | done =>
      obtain ⟨rfl, rfl⟩ := Prod.mk.inj (Option.some.inj h)
      exact ⟨⟨ht.named, ht.complete, ht.written, nofun⟩, .refl nofun⟩
    | fails =>
      obtain ⟨rfl, rfl⟩ := Prod.mk.inj (Option.some.inj h)
      exact ⟨holds_ending (ht.named uuid rfl) (.inl ⟨_, rfl⟩), .refl nofun⟩
    | part t => cases h
    | generated g => cases h
  | closing uuid text =>
    cases answer with
    | done =>
      obtain ⟨rfl, rfl⟩ := Prod.mk.inj (Option.some.inj h)
      exact ⟨⟨ht.named, ht.complete, ht.written, nofun⟩, .refl nofun⟩
    | fails =>
      obtain ⟨rfl, rfl⟩ := Prod.mk.inj (Option.some.inj h)
      exact ⟨holds_ending (ht.named uuid rfl) (.inl ⟨_, rfl⟩), .refl nofun⟩
    | part t => cases h
    | generated g => cases h
  | linking uuid text =>
    have hnamed := ht.named uuid rfl
    cases answer with
    | done =>
      have h := Option.some.inj h
      split at h
      case h_1 =>
        obtain ⟨rfl, rfl⟩ := Prod.mk.inj h
        exact ⟨holds_ending hnamed (.inl ⟨_, rfl⟩), .refl nofun⟩
      case h_2 =>
        obtain ⟨rfl, rfl⟩ := Prod.mk.inj h
        exact ⟨holds_ending hnamed (.inl ⟨_, rfl⟩), .refl nofun⟩
      case h_3 i hi hfree =>
        obtain rfl := Option.some.inj (hi.symm.trans hnamed)
        obtain ⟨rfl, rfl⟩ := Prod.mk.inj h
        have hcomplete : Complete p (d.contents (.made k)) := (ht.written text rfl rfl).symm ▸ ht.complete text rfl
        refine ⟨holds_ending ?_ (.inl ⟨_, rfl⟩), .link hfree hcomplete rfl⟩
        rw [Disk.names_link, if_neg (tempFile_ne keyFile uuid), hnamed]
    | fails =>
      obtain ⟨rfl, rfl⟩ := Prod.mk.inj (Option.some.inj h)
      exact ⟨holds_ending hnamed (.inl ⟨_, rfl⟩), .refl nofun⟩
    | part t => cases h
    | generated g => cases h
  | releasing uuid failed =>
    have hnamed := ht.named uuid rfl
    cases answer with
    | done =>
      obtain ⟨rfl, rfl⟩ := Prod.mk.inj (Option.some.inj h)
      exact ⟨holds_ending hnamed (.inr ⟨_, rfl⟩), .refl fun _ => rfl⟩
    | fails =>
      obtain ⟨rfl, rfl⟩ := Prod.mk.inj (Option.some.inj h)
      exact ⟨holds_ending hnamed (.inr ⟨_, rfl⟩), .refl fun _ => rfl⟩
    | part t => cases h
    | generated g => cases h
  | unlinking uuid failed =>
    have hreleased : (if failed then Phase.failed .platform else .rereading).isReleased := by cases failed <;> rfl
    have hholds (d : Disk Inode) : Holds p keyFile d k o (if failed then .failed .platform else .rereading) := by
      cases failed <;> exact ⟨nofun, nofun, nofun, nofun⟩
    cases answer with
    | done =>
      obtain ⟨rfl, rfl⟩ := Prod.mk.inj (Option.some.inj h)
      exact ⟨hholds _, .unlink (ht.named uuid rfl) hreleased⟩
    | fails =>
      obtain ⟨rfl, rfl⟩ := Prod.mk.inj (Option.some.inj h)
      exact ⟨hholds _, .refl fun _ => hreleased⟩
    | part t => cases h
    | generated g => cases h
  | rereading =>
    cases answer with
    | done =>
      obtain ⟨rfl, rfl⟩ := Prod.mk.inj (Option.some.inj h)
      split
      case h_1 text hread => exact ⟨holds_settle hread, .refl fun _ => Phase.isReleased_settle o _ text⟩
      case h_2 => exact ⟨holds_failed _, .refl fun _ => rfl⟩
    | fails =>
      obtain ⟨rfl, rfl⟩ := Prod.mk.inj (Option.some.inj h)
      exact ⟨holds_failed _, .refl fun _ => rfl⟩
    | part t => cases h
    | generated g => cases h
  | ready identity => cases h
  | failed e => cases h

end

/-! ## Runs -/

/-- Where the key file comes from: it is the one that was there before, or a complete one that an initialisation
has released. -/
inductive Origin (p : Platform) (keyFile : String) (d₀ : Disk Nat) (s : System) : Inode → Prop
  | before {n : Nat} (hname : d₀.names keyFile = some n) (hcontents : s.disk.contents (.before n) = d₀.contents n) :
    Origin p keyFile d₀ s (.before n)
  | made {k : Nat} {t : Task} (htask : s.tasks k = some t) (hreleased : t.phase.isReleased)
    (hcomplete : Complete p (s.disk.contents (.made k))) : Origin p keyFile d₀ s (.made k)

/-- What holds of the system at any time. -/
structure Inv (p : Platform) (keyFile : String) (d₀ : Disk Nat) (s : System) : Prop where
  holds : ∀ k t, s.tasks k = some t → Holds p keyFile s.disk k t.options t.phase
  origin : ∀ i, s.disk.names keyFile = some i → Origin p keyFile d₀ s i

section
variable {d₀ : Disk Nat} {s s' : System} {e : Event p}

omit [Runtime] in
theorem inv_initial : Inv p keyFile d₀ (initial d₀) where
  holds _ _ h := nomatch h
  origin i h := by
    obtain ⟨n, hname, rfl⟩ := Option.map_eq_some_iff.mp h
    exact .before hname rfl

omit [Runtime] in
/-- A step of an initialisation leaves a key file as it is. -/
theorem Inv.key_stays (h : Inv p keyFile d₀ s) {k : Nat} {t : Task} (ht : s.tasks k = some t) {d' : Disk Inode}
    {phase' : Phase} (heffect : Effect p keyFile k t.phase.isReleased s.disk d' phase') {i : Inode}
    (hi : s.disk.names keyFile = some i) : d'.names keyFile = some i ∧ d'.contents i = s.disk.contents i := by
  constructor
  · rcases heffect.key with hsame | ⟨hfree, -⟩
    · rw [hsame, hi]
    · rw [hfree] at hi
      cases hi
  · refine heffect.contents i ?_
    -- a file that an initialisation made is the key file only after it was released
    cases h.origin i hi with
    | before hname hcontents => exact .inl nofun
    | @made k' t' htask hreleased hcomplete =>
      by_cases hk : k' = k
      · subst hk
        obtain rfl := Option.some.inj (ht.symm.trans htask)
        exact .inr hreleased
      · exact .inl fun heq => hk (Inode.made.inj heq)

omit [Runtime] in
/-- What holds of an initialisation is kept by the steps of the others. -/
theorem Holds.other {d d' : Disk Inode} {j k : Nat} {o : Options} {phase phase' : Phase} {released : Bool}
    (h : Holds p keyFile d j o phase) (hjk : j ≠ k) (heffect : Effect p keyFile k released d d' phase')
    (hkey : ∀ i, d.names keyFile = some i → d'.names keyFile = some i ∧ d'.contents i = d.contents i) :
    Holds p keyFile d' j o phase := by
  have hmade : Inode.made j ≠ .made k := fun heq => hjk (Inode.made.inj heq)
  refine ⟨fun uuid huuid => ?_, h.complete, fun text hwritten htext => ?_, fun identity hready => ?_⟩
  · exact heffect.names _ _ (tempFile_ne keyFile uuid) (h.named uuid huuid) hmade
  · rw [heffect.contents _ (.inl hmade)]
    exact h.written text hwritten htext
  · obtain ⟨text, stored, hread, hidentity⟩ := h.ready identity hready
    obtain ⟨i, hi, rfl⟩ := Disk.read_eq_some.mp hread
    obtain ⟨hname, hcontents⟩ := hkey i hi
    exact ⟨_, stored, Disk.read_eq_some.mpr ⟨i, hname, hcontents⟩, hidentity⟩

/-- What a step does to the system: an initialisation starts, or one goes on. -/
theorem step_cases (h : step keyFile s e = some s') :
    (∃ k o phase, s.tasks k = none ∧ (phase = .reading ∨ ∃ e, phase = .failed e) ∧
      s' = { s with tasks := Function.update s.tasks k (some ⟨o, phase⟩) }) ∨
    ∃ k t answer d' phase', s.tasks k = some t ∧
      advance keyFile k t.options s.disk t.phase (answer : Answer p) = some (d', phase') ∧
      s' = ⟨d', Function.update s.tasks k (some ⟨t.options, phase'⟩)⟩ := by
  cases e with
  | start k o =>
    refine .inl ?_
    cases hnone : s.tasks k with
    | some t =>
      simp only [step, hnone] at h
      cases h
    | none =>
      simp only [step, hnone] at h
      obtain rfl := Option.some.inj h
      refine ⟨k, o.read, _, hnone, ?_, rfl⟩
      split
      · exact .inl rfl
      · exact .inr ⟨_, rfl⟩
  | resume k answer =>
    obtain ⟨t, ht, h⟩ := Option.bind_eq_some_iff.mp h
    obtain ⟨⟨d', phase'⟩, hadvance, h⟩ := Option.bind_eq_some_iff.mp h
    obtain rfl := Option.some.inj h
    exact .inr ⟨k, t, answer, d', phase', ht, hadvance, rfl⟩

/-- A step keeps the invariant, and leaves a key file as it is. -/
theorem Inv.step (hreads : Reads p.parse) (h : Inv p keyFile d₀ s) (hstep : step keyFile s e = some s') :
    Inv p keyFile d₀ s' ∧ ∀ i, s.disk.names keyFile = some i →
      s'.disk.names keyFile = some i ∧ s'.disk.contents i = s.disk.contents i := by
  rcases step_cases hstep with ⟨k, o, phase, hnone, hphase, rfl⟩ | ⟨k, t, answer, d', phase', ht, hadvance, rfl⟩
  · refine ⟨⟨fun j t' hj => ?_, fun i hi => ?_⟩, fun i hi => ⟨hi, rfl⟩⟩
    · by_cases hjk : j = k
      · subst hjk
        obtain rfl := Option.some.inj ((Function.update_self (β := fun _ => Option Task) _ _ _).symm.trans hj)
        rcases hphase with rfl | ⟨e, rfl⟩
        · exact ⟨nofun, nofun, nofun, nofun⟩
        · exact holds_failed e
      · exact h.holds j t' ((Function.update_of_ne hjk _ _).symm.trans hj)
    · cases h.origin i hi with
      | before hname hcontents => exact .before hname hcontents
      | @made k' t' htask hreleased hcomplete =>
        have hne : k' ≠ k := by
          rintro rfl
          rw [hnone] at htask
          cases htask
        exact .made ((Function.update_of_ne hne _ _).trans htask) hreleased hcomplete
  · obtain ⟨hholds, heffect⟩ := advance_spec hreads hadvance (h.holds k t ht)
    have hkey (i : Inode) (hi : s.disk.names keyFile = some i) := h.key_stays ht heffect hi
    refine ⟨⟨fun j t' hj => ?_, fun i hi => ?_⟩, hkey⟩
    · by_cases hjk : j = k
      · subst hjk
        obtain rfl := Option.some.inj ((Function.update_self (β := fun _ => Option Task) _ _ _).symm.trans hj)
        exact hholds
      · exact (h.holds j t' ((Function.update_of_ne hjk _ _).symm.trans hj)).other hjk heffect hkey
    · -- the key file is the one it was, or the file of this initialisation
      have hself : (Function.update s.tasks k (some ⟨t.options, phase'⟩)) k = some ⟨t.options, phase'⟩ :=
        Function.update_self _ _ _
      rcases heffect.key with hsame | ⟨hfree, hlinked, hreleased, hcomplete⟩
      · have hi' : s.disk.names keyFile = some i := hsame.symm.trans hi
        obtain ⟨-, hcontents⟩ := hkey i hi'
        cases h.origin i hi' with
        | before hname hbefore => exact .before hname (hcontents.trans hbefore)
        | @made k' t' htask hreleased hcomplete =>
          rw [← hcontents] at hcomplete
          by_cases hk : k' = k
          · subst hk
            obtain rfl := Option.some.inj (ht.symm.trans htask)
            exact .made hself (heffect.released hreleased) hcomplete
          · exact .made ((Function.update_of_ne hk _ _).trans htask) hreleased hcomplete
      · obtain rfl := Option.some.inj (hlinked.symm.trans hi)
        exact .made hself hreleased hcomplete

variable (keyFile) in
/-- A step of some initialisation. -/
def Moves (s s' : System) : Prop := ∃ e : Event p, DatasetSigner.step keyFile s e = some s'

theorem inv_run (hreads : Reads p.parse) {n : Nat} (hrun : Steps.Run (Moves (p := p) keyFile) n (initial d₀) s) :
    Inv p keyFile d₀ s :=
  hrun.invariant (fun _ _ h ⟨_, hstep⟩ => (h.step hreads hstep).1) inv_initial

/-- A key file stays as it is. -/
theorem key_stays_run (hreads : Reads p.parse) (h : Inv p keyFile d₀ s) {i : Inode} {text : String}
    (hi : s.disk.names keyFile = some i) (htext : s.disk.contents i = text) {n : Nat}
    (hrun : Steps.Run (Moves (p := p) keyFile) n s s') :
    s'.disk.names keyFile = some i ∧ s'.disk.contents i = text := by
  refine (hrun.invariant (I := fun s => Inv p keyFile d₀ s ∧ s.disk.names keyFile = some i ∧
    s.disk.contents i = text) ?_ ⟨h, hi, htext⟩).2
  rintro s s' ⟨hinv, hi, htext⟩ ⟨e, hstep⟩
  obtain ⟨hinv', hkey⟩ := hinv.step hreads hstep
  obtain ⟨hi', htext'⟩ := hkey i hi
  exact ⟨hinv', hi', htext'.trans htext⟩

/-- **Agreement.** In every run of initialisations, those that succeed with the same issuer and network obtain the
same key; a key file is neither replaced nor changed; and where one fails, there is no key file, or a complete one,
or the one that was there before. -/
theorem signers_agree (hreads : Reads p.parse) {n : Nat}
    (hrun : Steps.Run (Moves (p := p) keyFile) n (initial d₀) s) :
    (∀ j k o identity identity', s.tasks j = some ⟨o, .ready identity⟩ → s.tasks k = some ⟨o, .ready identity'⟩ →
      identity.keyId = identity'.keyId) ∧
    (∀ i, s.disk.names keyFile = some i → ∀ m s', Steps.Run (Moves (p := p) keyFile) m s s' →
      s'.disk.names keyFile = some i ∧ s'.disk.contents i = s.disk.contents i) ∧
    ∀ k o e, s.tasks k = some ⟨o, .failed e⟩ → s.disk.read keyFile = none ∨
      ∃ text, s.disk.read keyFile = some text ∧ (Complete p text ∨ d₀.read keyFile = some text) := by
  have hinv := inv_run hreads hrun
  refine ⟨fun j k o identity identity' hj hk => ?_, fun i hi m s' hrun' => ?_, fun k o e _ => ?_⟩
  · obtain ⟨text, stored, hread, hparse, hidentity⟩ := (hinv.holds j _ hj).ready identity rfl
    obtain ⟨text', stored', hread', hparse', hidentity'⟩ := (hinv.holds k _ hk).ready identity' rfl
    obtain rfl := Option.some.inj (hread.symm.trans hread')
    obtain rfl := Option.some.inj (hparse.symm.trans hparse')
    rw [Except.ok.inj (hidentity.symm.trans hidentity')]
  · exact key_stays_run hreads hinv hi rfl hrun'
  · cases hname : s.disk.names keyFile with
    | none => exact .inl (by rw [Disk.read, hname]; rfl)
    | some i =>
      refine .inr ⟨s.disk.contents i, Disk.read_eq_some.mpr ⟨i, hname, rfl⟩, ?_⟩
      cases hinv.origin i hname with
      | before hbefore hcontents => exact .inr (Disk.read_eq_some.mpr ⟨_, hbefore, hcontents.symm⟩)
      | made _ _ hcomplete => exact .inl hcomplete

/-- An initialisation with options that are in order starts to read. -/
theorem step_start {k : Nat} {o : Options} (hnone : s.tasks k = none) (hcheck : checkOptions p o.read = .ok ()) :
    Moves (p := p) keyFile s ⟨s.disk, Function.update s.tasks k (some ⟨o.read, .reading⟩)⟩ := by
  refine ⟨.start k o, ?_⟩
  simp only [DatasetSigner.step, hnone, hcheck]

/-- An initialisation that reads a record settles. -/
theorem step_read {k : Nat} {o : Options} {text : String} (htask : s.tasks k = some ⟨o, .reading⟩)
    (hread : s.disk.read keyFile = some text) :
    Moves (p := p) keyFile s ⟨s.disk, Function.update s.tasks k
      (some ⟨o, settle p o (.error "Dataset signing key unavailable or invalid") text⟩)⟩ := by
  refine ⟨.resume k .done, ?_⟩
  simp only [DatasetSigner.step, htask, Option.bind_eq_bind, Option.bind_some, advance, hread]
  rfl

end

end

/-! ## Two signers -/

/-- A platform that takes every text for a key. -/
noncomputable def samplePlatform : Platform where
  parseUrl href := some { href, protocol := "https:" }
  parse := @readBack .exact
  parseDate _ := some 0
  createPrivateKey _ := some ⟨"ed25519", []⟩
  sha256 _ := "0a"
  base64 _ := ""

def sampleOptions : Options := ⟨"https://a", "testnet"⟩

/-- A disk with one file. -/
def diskOf (text : String) : Disk Nat where
  names name := if name = "key" then some 0 else none
  contents _ := text

/-- Tasks that read the file one after the other. -/
theorem exists_run_reading (text : String) : let _ := Runtime.exact
    ∃ n s, Steps.Run (Moves (p := samplePlatform) "key") n (initial (diskOf text)) s ∧ s.disk.read "key" = some text ∧
      ∀ k < 2, s.tasks k = some ⟨sampleOptions.read,
        settle samplePlatform sampleOptions.read (.error "Dataset signing key unavailable or invalid") text⟩ := by
  intro _
  have hcheck : checkOptions samplePlatform sampleOptions.read = .ok () := by
    simp [checkOptions, samplePlatform, sampleOptions, Options.read]
  have hread : (initial (diskOf text)).disk.read "key" = some text := rfl
  refine ⟨4, _, .head (step_start (k := 0) rfl hcheck) (.head (step_start (k := 1) rfl hcheck)
    (.head (step_read (k := 0) rfl hread) (.head (step_read (k := 1) rfl hread) (.refl _)))), hread, ?_⟩
  intro k hk
  match k with
  | 0 => rfl
  | 1 => rfl

def sampleGenerated : Generated samplePlatform :=
  ⟨⟨"ed25519", []⟩, "pem", "t", "u", rfl, rfl, ⟨0, rfl, rfl⟩⟩

/-- Two signers that read a complete record obtain one key. -/
theorem signers_agree_readers : let _ := Runtime.exact
    ∃ n s identity identity', Steps.Run (Moves (p := samplePlatform) "key") n
        (initial (diskOf (stringify (record samplePlatform sampleOptions.read sampleGenerated)))) s ∧
      s.tasks 0 = some ⟨sampleOptions.read, .ready identity⟩ ∧
      s.tasks 1 = some ⟨sampleOptions.read, .ready identity'⟩ ∧ identity.keyId = identity'.keyId := by
  intro _
  have hnumbers : NumberText := numberText_exact
  obtain ⟨n, s, hrun, -, htasks⟩ :=
    exists_run_reading (stringify (record samplePlatform sampleOptions.read sampleGenerated))
  have hsettle : ∃ identity, settle samplePlatform sampleOptions.read
      (.error "Dataset signing key unavailable or invalid")
      (stringify (record samplePlatform sampleOptions.read sampleGenerated)) = .ready identity := by
    have hreads : Reads samplePlatform.parse := reads_readBack
    obtain ⟨hparse, hidentify⟩ := identify_record hreads sampleOptions.read sampleGenerated
    simp only [settle, hparse, hidentify]
    exact ⟨_, rfl⟩
  obtain ⟨identity, hready⟩ := hsettle
  have hfirst := htasks 0 (by decide)
  have hsecond := htasks 1 (by decide)
  rw [hready] at hfirst hsecond
  exact ⟨n, s, identity, identity, hrun, hfirst, hsecond,
    (signers_agree reads_readBack hrun).1 0 1 sampleOptions.read identity identity hfirst hsecond⟩

/-- A key file that holds no record stays when an initialisation fails. -/
theorem invalid_stays : let _ := Runtime.exact
    ∃ n s, Steps.Run (Moves (p := samplePlatform) "key") n (initial (diskOf "null")) s ∧
      (∃ e, s.tasks 0 = some ⟨sampleOptions.read, .failed e⟩) ∧ s.disk.read "key" = some "null" ∧
      ¬ Complete samplePlatform "null" := by
  intro _
  have hnumbers : NumberText := numberText_exact
  have hparse : samplePlatform.parse "null" = some .null := reads_readBack .null
  obtain ⟨n, s, hrun, hread, htasks⟩ := exists_run_reading "null"
  refine ⟨n, s, hrun, ⟨.platform, ?_⟩, hread, ?_⟩
  · rw [htasks 0 (by decide), settle, hparse]
    rfl
  · rintro ⟨o, stored, identity, hstored, hidentify⟩
    obtain rfl := Option.some.inj (hparse.symm.trans hstored)
    cases hidentify

end DatasetSigner

end Sharing
