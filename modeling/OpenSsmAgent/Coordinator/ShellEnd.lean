import OpenSsmAgent.Coordinator.ShellIsolation

/-!
# The end of a shell

The agent closes a shell with one terminal frame.  {lit}`handle_stream_up` hands it
to the operator like any other output, without waiting for room, and tears the
route down in the branches in which the frame was sent or the operator is gone.
A full channel is the third branch: it drops the frame and keeps the route, also
when the frame is the terminal one, which the agent does not send again.

Main results:

- Theorem {lit}`handleStreamUp_of_opened`: what an accepted frame does, by the
  result of the send.
- Theorem {lit}`eof_tears_down_iff`: the terminal frame tears its route down exactly
  if the operator's channel is not full.
-/

open Framing SymbolicCrypto

namespace OpenSsmAgent
namespace Coordinator

open Seal Wire Domain Hs Proto

/-- The senders the bridge holds on an operator channel: every route owns one. -/
def Bridge.senders (b : Bridge) (ch : Channel) : Nat :=
  b.shells.entries.countP (fun e => e.2.output = ch)

/-- A route was torn down: the host has none, its sender is dropped, and the routes
of the other hosts are as before. -/
structure TornDown (host : HostId) (route : ShellRoute) (b b' : Bridge) : Prop where
  gone : b'.shells.lookup host = none
  dropped : b.senders route.output = b'.senders route.output + 1
  others : ∀ other, other ≠ host → b'.shells.lookup other = b.shells.lookup other

section Frames

variable {b : Bridge} {host : HostId} {route route' : ShellRoute} {env : StepEnv}
  {tenant : String} {payload : Payload} {e : Envelope} {frame : StreamFrame}

theorem tornDown_dropRoute (hroute : b.shells.lookup host = some route) :
    TornDown host route b (b.dropRoute host) where
  gone := by simp [Bridge.dropRoute, Table.lookup_drop]
  dropped := by
    have hcount := Table.countP_drop (fun e => decide (e.2.output = route.output)) hroute
    simpa [Bridge.senders, Bridge.dropRoute] using hcount
  others := by
    intro other hne
    simp [Bridge.dropRoute, Table.lookup_drop, hne]

theorem not_tornDown_setRoute : ¬ TornDown host route b (b.setRoute host route') := by
  intro h
  simpa [Bridge.setRoute] using h.gone

/-- What a frame that opens on the route of its host does, by the result of the
send to the operator. -/
theorem handleStreamUp_of_opened (htenant : HostId.parse tenant = some host)
    (hroute : b.shells.lookup host = some route) (henv : payload.envelope = some e)
    (hopen : route.openUplink e = (some frame, route')) :
    (handleStreamUp env b tenant payload).1 =
      match env.sendFrame route.output frame with
      | .ok => if frame.eof then b.dropRoute host else b.setRoute host route'
      | .full => b.setRoute host route'
      | .closed => b.dropRoute host := by
  have hout : route'.output = route.output :=
    (congrArg (fun opened => opened.2.output) hopen).symm
  unfold handleStreamUp
  simp only [htenant, hroute, henv, hopen, hout]
  cases env.sendFrame route.output frame with
  | ok => cases frame.eof <;> rfl
  | full => rfl
  | closed => rfl

/-- A shell's fresh authenticated terminal frame tears its route down, whether or
not the answer can be published, exactly if the operator's channel is not full. -/
theorem eof_tears_down_iff (env : StepEnv) (htenant : HostId.parse tenant = some host)
    (hroute : b.shells.lookup host = some route) (henv : payload.envelope = some e)
    (hopen : route.openUplink e = (some frame, route')) (heof : frame.eof = true) :
    TornDown host route b (handleStreamUp env b tenant payload).1 ↔
      env.sendFrame route.output frame ≠ .full := by
  rw [handleStreamUp_of_opened htenant hroute henv hopen]
  cases hsend : env.sendFrame route.output frame with
  | ok => simpa [heof] using tornDown_dropRoute hroute
  | full => simpa using not_tornDown_setRoute
  | closed => simpa using tornDown_dropRoute hroute

end Frames

/-! ## A shell that exits under a slow operator -/

/-- The sample host with an open shell. -/
def sampleShellOpen : Bridge :=
  (run sampleCfg Bridge.new (sampleShells.take 2)).1

/-- The route of the open shell. -/
def sampleRoute : ShellRoute :=
  ⟨Str.lit "a", sampleKeys.deriveStream (Str.lit "a").bytes, sampleSid, 0, none, 0⟩

/-- The terminal frame of the shell. -/
def sampleEof : Envelope :=
  sealEnvelope (sampleKeys.deriveStream (Str.lit "a").bytes) .agentToCoord
    sampleHost.toStr sampleSid (wireSeq 0) .stream eofFrame.encode

theorem lookup_sampleShellOpen : sampleShellOpen.shells.lookup sampleHost = some sampleRoute := by
  decide +kernel

theorem openUplink_sampleEof :
    sampleRoute.openUplink sampleEof =
      (some eofFrame, { sampleRoute with recvHigh := some 0 }) := by
  decide +kernel

/-- With room in the channel, and the publish of the answer failing, the shell's
exit frees the route. -/
theorem eof_tears_down_unpublished :
    TornDown sampleHost sampleRoute sampleShellOpen
      (handleStreamUp { sampleEnv with publish := fun _ _ => false } sampleShellOpen
        sampleHost.toStr.text (envelopePayload sampleEof)).1 :=
  (eof_tears_down_iff { sampleEnv with publish := fun _ _ => false } (HostId.parse_toStr sampleHost)
    lookup_sampleShellOpen rfl openUplink_sampleEof rfl).mpr (by decide)

/-- The operator's channel is full when the shell exits: the frame is dropped and
the route of the dead shell stays. -/
theorem eof_on_full_channel_keeps_route :
    ((handleStreamUp { sampleEnv with sendFrame := fun _ _ => .full } sampleShellOpen
        sampleHost.toStr.text (envelopePayload sampleEof)).1.shells.lookup sampleHost).map
      (·.streamId) = some (Str.lit "a") ∧
    ¬ TornDown sampleHost sampleRoute sampleShellOpen
      (handleStreamUp { sampleEnv with sendFrame := fun _ _ => .full } sampleShellOpen
        sampleHost.toStr.text (envelopePayload sampleEof)).1 := by
  have hkept : (handleStreamUp { sampleEnv with sendFrame := fun _ _ => .full } sampleShellOpen
      sampleHost.toStr.text (envelopePayload sampleEof)).1 =
        sampleShellOpen.setRoute sampleHost { sampleRoute with recvHigh := some 0 } :=
    handleStreamUp_of_opened (HostId.parse_toStr sampleHost) lookup_sampleShellOpen rfl
      openUplink_sampleEof
  rw [hkept]
  exact ⟨by simp [Bridge.setRoute, sampleRoute], not_tornDown_setRoute⟩

end Coordinator
end OpenSsmAgent
