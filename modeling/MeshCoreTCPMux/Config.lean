import MeshCoreTCPMux.Wire

/-!
# Configuration

The runtime and broker settings with their defaults, and the check `validate` that the entry point
makes before anything is started. `listen_host`, which only the socket layer reads, is left out.
-/

namespace MeshCoreTCPMux

structure Config where
  listenMultiClientPort : Int := 5001
  listenDedicatedClientPorts : List Int := []
  offlineQueueSize : Nat := 256
  commandLimit : Nat := 16
  commandAge : Time := seconds 15
  virtualSyncTimeout : Time := seconds 30
  inboxEntries : Nat := 256
  outputFrames : Nat := 512
  connectTimeout : Time := seconds 5
  frameTimeout : Time := seconds 5
  writeTimeout : Time := seconds 5
  responseTimeout : Time := seconds 20
  contactsTimeout : Time := seconds 30
  startupTimeout : Time := seconds 15
  signingTimeout : Time := seconds 30
  radioUncertaintyTimeout : Time := seconds 60
  pollInterval : Time := seconds 5
  deduplicateReceivedMessages : Bool := false
  privateKeyExport : Bool := true
  privateKeyImport : Bool := true
  factoryReset : Bool := true

namespace Config

/-- Reject settings that cannot provide finite, positive resource deadlines. -/
def validate (c : Config) : Except Error Unit := do
  let ports := c.listenMultiClientPort :: c.listenDedicatedClientPorts
  if ¬ ∀ port ∈ ports, 1 ≤ port ∧ port ≤ 65535 then
    throw (.argument ["listen ports must be between 1 and 65535"])
  if ¬ ports.Nodup then throw (.argument ["listen ports must be unique"])
  if ¬ ∀ n ∈ [c.commandLimit, c.inboxEntries, c.offlineQueueSize, c.outputFrames], 0 < n then
    throw (.argument ["queue budgets must be positive"])
  if ¬ ∀ duration ∈ [c.commandAge, c.virtualSyncTimeout, c.connectTimeout, c.frameTimeout,
      c.writeTimeout, c.responseTimeout, c.contactsTimeout, c.startupTimeout, c.signingTimeout,
      c.radioUncertaintyTimeout, c.pollInterval], 0 < duration then
    throw (.argument ["deadlines and polling interval must be positive"])
  if c.contactsTimeout < c.responseTimeout then
    throw (.argument ["contacts total timeout must not be shorter than its idle timeout"])

/-- The settings that pass `validate`. -/
def Valid (c : Config) : Prop := c.validate = .ok ()

instance (c : Config) : Decidable c.Valid :=
  match h : c.validate with
  | .ok () => isTrue h
  | .error _ => isFalse fun h' => nomatch h.symm.trans h'

/-- The broker-facing half of `validate`. -/
theorem Valid.positive {c : Config} (h : c.Valid) :
    (0 < c.commandLimit ∧ 0 < c.inboxEntries ∧ 0 < c.offlineQueueSize ∧ 0 < c.outputFrames) ∧
      (0 < c.commandAge ∧ 0 < c.virtualSyncTimeout ∧ 0 < c.writeTimeout ∧ 0 < c.responseTimeout ∧
        0 < c.contactsTimeout ∧ 0 < c.signingTimeout ∧ 0 < c.radioUncertaintyTimeout ∧
        0 < c.pollInterval) := by
  unfold Valid validate at h
  simp only [bind, Except.bind, throw, throwThe, MonadExceptOf.throw, pure, Except.pure] at h
  split at h
  · cases h
  split at h
  · cases h
  split at h
  · cases h
  next hbudgets =>
    split at h
    · cases h
    next hdurations =>
      simp only [not_not, List.mem_cons, List.not_mem_nil, or_false, forall_eq_or_imp, forall_eq]
        at hbudgets hdurations
      obtain ⟨hlimit, hinbox, hqueue, houtput⟩ := hbudgets
      obtain ⟨hage, hsync, -, -, hwrite, hresponse, hcontacts, -, hsigning, hradio, hpoll⟩ :=
        hdurations
      exact ⟨⟨hlimit, hinbox, hqueue, houtput⟩,
        hage, hsync, hwrite, hresponse, hcontacts, hsigning, hradio, hpoll⟩

theorem valid_default : Valid {} := by decide

end Config

end MeshCoreTCPMux
