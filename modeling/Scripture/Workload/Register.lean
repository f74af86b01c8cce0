import Scripture.Interleaving
import Scripture.Workload.Progress

set_option autoImplicit false

/- The progress register in one conditional object. A process reads the object and replaces it under
the version it has read. The reply to a write may be lost; the write has then happened or not, and
the process reads the object again to find out. -/
namespace Scripture.Workload

open ByteFormat Interleaving

structure ConditionalVersion where
  eTag : Option String
  version : Option String
  deriving DecidableEq

namespace ConditionalVersion

def nonEmpty (value : Option String) : Option String :=
  (value.map trim).filter fun text => !text.isEmpty

def hasWitness (version : ConditionalVersion) : Bool :=
  (nonEmpty version.eTag).isSome || (nonEmpty version.version).isSome

def requireWitness (version : ConditionalVersion) : Except ProgressError Unit :=
  if version.hasWitness then .ok ()
  else .error (.io "conditional object lacks e_tag and version witness")

end ConditionalVersion

structure ConditionalValue where
  bytes : Bytes
  version : ConditionalVersion

inductive ConditionalSwap where
  | applied (version : ConditionalVersion)
  | conflict
  | unknown (detail : String)

/-- `PutMode::Create`, or `PutMode::Update` under a version. -/
structure PutRequest where
  expected : Option ConditionalVersion
  value : Bytes

inductive GetReply where
  | notFound
  | failed (error : String)
  | found (version : ConditionalVersion) (body : Except String Bytes)

inductive PutReply where
  | applied (version : ConditionalVersion)
  | conflict
  | failed (error : String)

inductive StoreOp where
  | get
  | put (request : PutRequest)

def StoreOp.Reply : StoreOp → Type
  | .get => GetReply
  | .put _ => PutReply

/-- What becomes of a read. -/
inductive GetFate where
  | answered
  | failed (error : String)
  | brokenOff (error : String)

/-- What becomes of a write. If its reply is lost, it was applied or it never will be. -/
inductive PutFate where
  | answered
  | lost (applied : Bool) (error : String)

/-- The version the store shows for a content at its so-many-th write. -/
class Witnesses where
  witness : Bytes → Nat → ConditionalVersion

/-- All that the object has held, oldest first. -/
structure Store where
  written : List Bytes

namespace Store

variable [Witnesses]

def current (store : Store) : Option (Bytes × ConditionalVersion) :=
  store.written.getLast?.map fun bytes =>
    (bytes, Witnesses.witness bytes (store.written.length - 1))

def land (store : Store) (request : PutRequest) : Store :=
  if store.current.map Prod.snd = request.expected then ⟨store.written ++ [request.value]⟩
  else store

def get (store : Store) : GetFate → GetReply
  | .failed error => .failed error
  | .answered =>
      match store.current with
      | none => .notFound
      | some (bytes, version) => .found version (.ok bytes)
  | .brokenOff error =>
      match store.current with
      | none => .notFound
      | some (_, version) => .found version (.error error)

def put (store : Store) (request : PutRequest) : PutFate → Store × PutReply
  | .answered =>
      if store.current.map Prod.snd = request.expected then
        (store.land request, .applied (Witnesses.witness request.value store.written.length))
      else (store, .conflict)
  | .lost applied error => (if applied then store.land request else store, .failed error)

/-- Every read and every write of a process ends so. -/
def act (reads : GetFate) (writes : PutFate) (store : Store) : (op : StoreOp) → Store × op.Reply
  | .get => (store, store.get reads)
  | .put request => store.put request writes

end Store

abbrev StoreM (ε α : Type) : Type := ExceptT ε (Program StoreOp StoreOp.Reply) α

namespace ObjectStoreProgressStore

def hexEncode (bytes : Bytes) : String := String.join (bytes.map hexByte)

def maxProgressKeyComponentBytes : Nat := 256

def safeHexComponent (raw : Named) (label : String) : Except ProgressError String :=
  if (utf8 raw.val).isEmpty then .error (.io (label ++ " must be non-empty"))
  else if maxProgressKeyComponentBytes < (utf8 raw.val).length then
    .error (.io (label ++ " length " ++ toString (utf8 raw.val).length ++ " exceeds " ++
      toString maxProgressKeyComponentBytes ++ " bytes"))
  else .ok (hexEncode (utf8 raw.val))

def registerPathForKey (root : String) (key : BindingKey) : Except ProgressError String := do
  let workload ← safeHexComponent key.workloadId "workload_id"
  let canon ← safeHexComponent key.canonId "canon_id"
  let verse ← safeHexComponent key.verseId "verse_id"
  return root ++ "/scripture-workload/progress-register/v1/w-" ++ workload ++ "/c-" ++ canon ++
    "/v-" ++ verse ++ "/register.bin"

/-- What `read` makes of the store's reply. -/
def readReply (path : String) : GetReply → Except ProgressError (Option ConditionalValue)
  | .notFound => return none
  | .failed error => throw (.io s!"read {path}: {error}")
  | .found version body => do
      version.requireWitness
      match body with
      | .error error => throw (.io s!"read-bytes {path}: {error}")
      | .ok bytes => return some ⟨bytes, version⟩

/-- `ObjectStoreConditionalObjectRegister::read`. -/
def read (path : String) : StoreM ProgressError (Option ConditionalValue) := do
  let reply : GetReply ← ask StoreOp.get
  given (readReply path reply)

def compareAndSwap (expected : Option ConditionalVersion) (value : Bytes) :
    StoreM ProgressError ConditionalSwap := do
  given (expected.elim (.ok ()) ConditionalVersion.requireWitness)
  let reply : PutReply ← ask (StoreOp.put ⟨expected, value⟩)
  match reply with
  | .applied version => do
      given version.requireWitness
      return .applied version
  | .conflict => return .conflict
  | .failed error => return .unknown error

/-- The register that a read value holds for the key. -/
def registerOf (key : BindingKey) :
    Option ConditionalValue → Except ProgressError (Option (ProgressRegister × ConditionalVersion))
  | none => return none
  | some value => do
      value.version.requireWitness
      let register ← decodeRecord value.bytes key
      return some (register, value.version)

def readRegisterFor (root : String) (key : BindingKey) :
    StoreM ProgressError (Option (ProgressRegister × ConditionalVersion)) := do
  let path ← given (registerPathForKey root key)
  let observed ← read path
  given (registerOf key observed)

def rereadResolvesToIntended (root : String) (key : BindingKey) (intended : ProgressRegister) :
    StoreM ProgressError Bool := do
  let reread ← readRegisterFor root key
  return reread.any fun found => found.1 = intended

/-- The register an acquisition wants, and the version it replaces. -/
def intendedAcquire (key : BindingKey) (ownerToken : BindingToken) :
    Option (ProgressRegister × ConditionalVersion) →
      Except ProgressError (ProgressRegister × Option ConditionalVersion)
  | none => return (⟨key.under 1, ownerToken, 0, none⟩, none)
  | some (current, version) =>
      if current.bindingToken = ownerToken then return (current, some version)
      else if 2 ^ 64 ≤ current.binding.bindingEpoch.toNat + 1 then
        throw (.io "binding_epoch overflow")
      else return (⟨key.under (current.binding.bindingEpoch + 1), ownerToken, current.frontier,
        current.lastCommitRef⟩, some version)

/-- One attempt after another. -/
def acquireAttempts (root : String) (key : BindingKey) (ownerToken : BindingToken) :
    Nat → StoreM ProgressError AcquiredBinding
  | 0 => throw .casConflict
  | attempts + 1 => do
      let observed ← readRegisterFor root key
      let (intended, expected) ← given (intendedAcquire key ownerToken observed)
      let encoded ← given (encodeRecord intended)
      match ← compareAndSwap expected encoded with
      | .applied _ => return ⟨intended.binding, ownerToken⟩
      | .conflict => acquireAttempts root key ownerToken attempts
      | .unknown detail => do
          if ← rereadResolvesToIntended root key intended then
            return ⟨intended.binding, ownerToken⟩
          else
            throw (.indeterminate s!"acquire_or_renew outcome unknown after dispatch: {detail}")

def maxAcquireCasAttempts : Nat := 32

def acquireOrRenew (root : String) (key : BindingKey) (ownerToken : BindingToken) :
    StoreM ProgressError AcquiredBinding :=
  acquireAttempts root key ownerToken maxAcquireCasAttempts

end ObjectStoreProgressStore

open ObjectStoreProgressStore

/-- What a reread of the register comes to. -/
def Store.reread [Witnesses] (store : Store) (reads : GetFate) (root : String)
    (intended : ProgressRegister) : Except ProgressError Bool :=
  (exec (Store.act reads .answered)
    (rereadResolvesToIntended root intended.binding.key intended).run store).2

section reread

variable [Witnesses] {intended : ProgressRegister} {bytes : Bytes} {root path : String}
  {store : Store} {reads : GetFate} {writes : PutFate} {key : BindingKey}

theorem readRegisterFor_ends (placed : registerPathForKey root key = .ok path) :
    Ends (Store.act reads writes) (readRegisterFor root key) store
      (store, readReply path (store.get reads) >>= registerOf key) := by
  have asked : Ends (Store.act reads writes) (read path) store
      (store, readReply path (store.get reads)) := Ends.bind (Ends.ask _ _) rfl
  unfold readRegisterFor
  rw [placed]
  cases found : readReply path (store.get reads) with
  | error error =>
      rw [found] at asked
      exact Ends.bind rfl (Ends.fail asked)
  | ok value =>
      rw [found] at asked
      exact Ends.bind rfl (Ends.bind asked rfl)

theorem reread_ends (placed : registerPathForKey root key = .ok path) :
    Ends (Store.act reads writes) (rereadResolvesToIntended root key intended) store
      (store, (readReply path (store.get reads) >>= registerOf key).map fun reread =>
        reread.any fun found => found.1 = intended) := by
  have observed := @readRegisterFor_ends _ _ _ store reads writes _ placed
  cases found : readReply path (store.get reads) >>= registerOf key with
  | error error =>
      rw [found] at observed
      exact Ends.fail observed
  | ok value =>
      rw [found] at observed
      exact Ends.bind observed rfl

/-- The register is read where the store answers and shows a version. -/
theorem registerOf_readReply {register : ProgressRegister} {version : ConditionalVersion} :
    (readReply path (store.get reads) >>= registerOf key) = .ok (some (register, version)) ↔
      reads = .answered ∧ ∃ held, store.current = some (held, version) ∧
        version.hasWitness = true ∧ decodeRecord held key = .ok register := by
  cases reads with
  | failed error => simp [Store.get, readReply, bind_eq_ok, throw, throwThe, MonadExceptOf.throw]
  | brokenOff error =>
      cases current : store.current <;>
        simp [Store.get, current, readReply, registerOf, bind_eq_ok, throw, throwThe,
          MonadExceptOf.throw, pure, Except.pure]
  | answered =>
      cases current : store.current with
      | none => simp [Store.get, current, readReply, registerOf, bind_eq_ok, pure, Except.pure]
      | some object =>
          obtain ⟨held, shown⟩ := object
          have reply : store.get .answered = .found shown (.ok held) := by
            rw [Store.get, current]
          cases shows : shown.hasWitness with
          | false =>
              have refused : shown.requireWitness = .error _ := if_neg (by simp [shows])
              rw [reply, readReply, refused]
              constructor
              · intro failed
                cases failed
              · rintro ⟨-, _, same, witnessed, -⟩
                cases same
                cases shows.symm.trans witnessed
          | true =>
              have passed : shown.requireWitness = .ok () := if_pos shows
              have value : (readReply path (store.get .answered) >>= registerOf key) =
                  (decodeRecord held key).map fun register => some (register, shown) := by
                rw [reply, readReply, passed]
                show (shown.requireWitness >>= fun _ => _) = _
                rw [passed]
                cases decodeRecord held key <;> rfl
              rw [value]
              constructor
              · intro found
                cases decoded : decodeRecord held key with
                | error error =>
                    rw [decoded] at found
                    cases found
                | ok other =>
                    rw [decoded] at found
                    cases found
                    exact ⟨rfl, held, rfl, shows, decoded⟩
              · rintro ⟨-, _, same, -, decoded⟩
                cases same
                rw [decoded]
                rfl

/-- The reread finds the intended record exactly where its bytes are. -/
theorem reread_eq_true (encoded : encodeRecord intended = .ok bytes)
    (placed : registerPathForKey root intended.binding.key = .ok path) :
    store.reread reads root intended = .ok true ↔
      reads = .answered ∧ ∃ version, store.current = some (bytes, version) ∧
        version.hasWitness = true := by
  have ends := congrArg Prod.snd (@reread_ends _ intended _ _ store reads .answered _ placed)
  rw [Store.reread, ends]
  constructor
  · intro resolved
    cases found : readReply path (store.get reads) >>= registerOf intended.binding.key with
    | error error => simp [found, Except.map] at resolved
    | ok reread =>
        cases reread with
        | none => simp [found, Except.map] at resolved
        | some pair =>
            obtain ⟨register, version⟩ := pair
            obtain ⟨answered, held, current, shows, decoded⟩ := registerOf_readReply.mp found
            have same : register = intended := by simpa [found, Except.map] using resolved
            rw [same] at decoded
            have again := (encodeRecord_decodeRecord decoded).1
            cases encoded.symm.trans again
            exact ⟨answered, version, current, shows⟩
  · rintro ⟨answered, version, current, shows⟩
    have found := (@registerOf_readReply _ path _ _ _ _ _).mpr
      ⟨answered, bytes, current, shows, decodeRecord_encodeRecord encoded⟩
    simp [found, Except.map]

/-- The store with the lost write of a renewal holds the same record as before. -/
theorem put_renewal {version : ConditionalVersion} (current : store.current = some (bytes, version))
    (applied : Bool) (error : String) :
    (store.put ⟨some version, bytes⟩ (.lost applied error)).1 =
        ⟨store.written ++ if applied then [bytes] else []⟩ ∧
      ∃ shown, (store.put ⟨some version, bytes⟩ (.lost applied error)).1.current =
        some (bytes, shown) := by
  cases applied with
  | false =>
      refine ⟨?_, version, current⟩
      show store = ⟨store.written ++ []⟩
      rw [List.append_nil]
  | true =>
      have landed : store.land ⟨some version, bytes⟩ = ⟨store.written ++ [bytes]⟩ :=
        if_pos (congrArg (Option.map Prod.snd) current)
      refine ⟨landed, Witnesses.witness bytes store.written.length, ?_⟩
      show (store.land ⟨some version, bytes⟩).current = _
      rw [landed, Store.current, List.getLast?_concat, List.length_append]
      rfl

/-- A renewal is granted when its reply is lost, whether it was written or not. -/
theorem acquireOrRenew_lost {version : ConditionalVersion} {applied : Bool} {error : String}
    (encoded : encodeRecord intended = .ok bytes)
    (placed : registerPathForKey root intended.binding.key = .ok path)
    (current : store.current = some (bytes, version))
    (witnessed : ∀ held count, (Witnesses.witness held count).hasWitness = true) :
    Ends (Store.act .answered (.lost applied error))
      (acquireOrRenew root intended.binding.key intended.bindingToken) store
      ((store.put ⟨some version, bytes⟩ (.lost applied error)).1,
        .ok ⟨intended.binding, intended.bindingToken⟩) := by
  have shows (held : Store) {other : ConditionalVersion}
      (same : held.current = some (bytes, other)) :
      other.hasWitness = true := by
    obtain ⟨_, -, shown⟩ := Option.map_eq_some_iff.mp same
    cases shown
    exact witnessed _ _
  have finds (held : Store) {other : ConditionalVersion}
      (same : held.current = some (bytes, other)) :
      Ends (Store.act .answered (.lost applied error))
        (readRegisterFor root intended.binding.key) held (held, .ok (some (intended, other))) := by
    have found := (@registerOf_readReply _ path _ _ _ _ _).mpr
      ⟨rfl, bytes, same, shows held same, decodeRecord_encodeRecord encoded⟩
    rw [← found]
    exact readRegisterFor_ends placed
  obtain ⟨-, shown, after⟩ := put_renewal current applied error
  have renewed : intendedAcquire intended.binding.key intended.bindingToken
      (some (intended, version)) = .ok (intended, some version) := if_pos rfl
  have witness : version.requireWitness = .ok () := if_pos (shows store current)
  have swapped : Ends (Store.act .answered (.lost applied error))
      (compareAndSwap (some version) bytes) store
      ((store.put ⟨some version, bytes⟩ (.lost applied error)).1, .ok (.unknown error)) := by
    unfold compareAndSwap
    rw [Option.elim_some, witness]
    exact Ends.bind rfl (Ends.bind (Ends.ask _ _) rfl)
  show Ends _ (acquireAttempts root _ _ (31 + 1)) _ _
  refine Ends.bind (finds store current) ?_
  rw [renewed]
  refine Ends.bind rfl ?_
  dsimp only
  rw [encoded]
  refine Ends.bind rfl (Ends.bind swapped ?_)
  refine Ends.bind (Ends.bind (finds _ after) rfl) ?_
  simp only [Option.any_some, decide_true, if_true]
  rfl

end reread

/-- The codec of progress records is exact in both directions. A reread says whether the register
holds the intended record. It says whether a write whose reply was lost has happened, if the
register did not hold that record before. -/
theorem progressRecord_exact [Witnesses] :
    (∀ register bytes, encodeRecord register = .ok bytes →
      decodeRecord bytes register.binding.key = .ok register) ∧
    (∀ bytes key register, decodeRecord bytes key = .ok register →
      encodeRecord register = .ok bytes ∧ register.binding.key = key) ∧
    (∀ (intended : ProgressRegister) (bytes : Bytes) (root path : String),
      encodeRecord intended = .ok bytes →
      registerPathForKey root intended.binding.key = .ok path →
      (∀ (store : Store) (reads : GetFate), store.reread reads root intended = .ok true ↔
        reads = .answered ∧ ∃ version, store.current = some (bytes, version) ∧
          version.hasWitness = true) ∧
      (∀ (before : Store) (request : PutRequest) (applied : Bool) (error : String),
        request.value = bytes → before.current.map Prod.fst ≠ some bytes →
        let after := (before.put request (.lost applied error)).1
        (∀ held version, after.current = some (held, version) → version.hasWitness = true) →
        (after.reread .answered root intended = .ok true ↔
          after.written = before.written ++ [bytes]))) := by
  refine ⟨fun _ _ => decodeRecord_encodeRecord, fun _ _ _ => encodeRecord_decodeRecord, ?_⟩
  intro intended bytes root path encoded placed
  refine ⟨fun store reads => reread_eq_true encoded placed, ?_⟩
  intro before request applied error value other after witnessed
  rw [reread_eq_true encoded placed]
  constructor
  · rintro ⟨-, version, current, -⟩
    have changed : after ≠ before := by
      intro same
      rw [same] at current
      exact other (by rw [current]; rfl)
    have landed : after = before.land request := by
      cases applied with
      | true => rfl
      | false => exact absurd rfl changed
    have matched : before.current.map Prod.snd = request.expected := by
      by_contra unmatched
      exact changed (landed.trans (if_neg unmatched))
    rw [landed, Store.land, if_pos matched, value]
  · intro written
    have current : after.current =
        some (bytes, Witnesses.witness bytes (after.written.length - 1)) := by
      rw [Store.current, written, List.getLast?_concat]
      rfl
    exact ⟨rfl, _, current, witnessed _ _ current⟩

section samples

/-- Each write shows a version of its own. -/
@[reducible] def countedWrites : Witnesses where
  witness _ count := ⟨some "tag", some (toString count)⟩

def sampleKey : BindingKey := ⟨⟨"w", by decide⟩, ⟨"c", by decide⟩, ⟨"v", by decide⟩⟩

def sampleRegister : ProgressRegister := ⟨sampleKey.under 1, ⟨"a", by decide⟩, 0, none⟩

theorem countedWrites_hasWitness (value : Bytes) (count : Nat) :
    (countedWrites.witness value count).hasWitness = true := by
  have tagged : (ConditionalVersion.nonEmpty (some "tag")).isSome = true := by decide
  unfold ConditionalVersion.hasWitness
  rw [show (countedWrites.witness value count).eTag = some "tag" from rfl, tagged, Bool.true_or]

theorem sampleRegister_encoded : ∃ bytes, encodeRecord sampleRegister = .ok bytes :=
  ⟨_, encodeRecord_of_writable ⟨by decide, rfl, by decide, by decide, rfl, by decide, rfl⟩⟩

theorem sampleKey_placed :
    ∃ path, registerPathForKey "root" sampleRegister.binding.key = .ok path := ⟨_, rfl⟩

end samples

/-- The first record of a register, and its write with a lost reply. -/
theorem progressRecord_exact_first : ∃ (_ : Witnesses) (bytes : Bytes),
    encodeRecord sampleRegister = .ok bytes ∧ decodeRecord bytes sampleKey = .ok sampleRegister ∧
      ∀ applied, let after := (Store.put ⟨[]⟩ ⟨none, bytes⟩ (.lost applied "timeout")).1
        (after.reread .answered "root" sampleRegister = .ok true ↔ after.written = [bytes]) := by
  obtain ⟨decodes, -, rereads⟩ := @progressRecord_exact countedWrites
  obtain ⟨bytes, encoded⟩ := sampleRegister_encoded
  obtain ⟨path, placed⟩ := sampleKey_placed
  refine ⟨countedWrites, bytes, encoded, decodes sampleRegister bytes encoded, ?_⟩
  intro applied
  refine (rereads sampleRegister bytes "root" path encoded placed).2 ⟨[]⟩ ⟨none, bytes⟩ applied
    "timeout" rfl (by simp [Store.current]) ?_
  intro held version current
  cases applied with
  | false => cases current
  | true =>
      obtain ⟨-, rfl⟩ := Prod.mk.inj (Option.some.inj current)
      exact countedWrites_hasWitness bytes _

/-- The owner of a register renews it, and the reply to its write is lost. Whether the write was
applied or not, the reread finds the intended record, and the renewal is granted. -/
theorem renewal_reread_undecided : ∃ (_ : Witnesses) (bytes : Bytes) (version : ConditionalVersion),
    let before : Store := ⟨[bytes]⟩
    encodeRecord sampleRegister = .ok bytes ∧ before.current = some (bytes, version) ∧
      ∀ applied, let after := (before.put ⟨some version, bytes⟩ (.lost applied "timeout")).1
        after.written = (if applied then [bytes, bytes] else [bytes]) ∧
        after.reread .answered "root" sampleRegister = .ok true ∧
        Ends (Store.act .answered (.lost applied "timeout"))
          (acquireOrRenew "root" sampleRegister.binding.key sampleRegister.bindingToken) before
          (after, .ok ⟨sampleRegister.binding, sampleRegister.bindingToken⟩) := by
  let witnesses := countedWrites
  obtain ⟨bytes, encoded⟩ := sampleRegister_encoded
  obtain ⟨path, placed⟩ := sampleKey_placed
  refine ⟨countedWrites, bytes, countedWrites.witness bytes 0, encoded, rfl, fun applied => ?_⟩
  obtain ⟨written, shown, current⟩ :=
    @put_renewal _ bytes ⟨[bytes]⟩ (countedWrites.witness bytes 0) rfl applied "timeout"
  refine ⟨?_, (reread_eq_true encoded placed).mpr ⟨rfl, shown, current, ?_⟩,
    acquireOrRenew_lost encoded placed rfl countedWrites_hasWitness⟩
  · rw [written]
    cases applied <;> rfl
  · obtain ⟨_, -, same⟩ := Option.map_eq_some_iff.mp current
    cases same
    exact countedWrites_hasWitness _ _

end Scripture.Workload
