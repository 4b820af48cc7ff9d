import OpenSsmAgent.Coordinator.Intake

/-!
# What a turn of the bridge can do

Every turn of the bridge loop is a sequence of small acts: an effect other than a
seal, an envelope sealed on a session or on a shell route, an advance of a replay
guard, a change of the job table, the end of a route.  Two acts give birth to an
allocator: storing a fresh session and storing a fresh shell route.  A turn holds
at most one of these.

An invariant of the bridge is proved once per act; {lit}`step_acts` carries it to
every turn.

Main results:

- Theorem {lit}`step_acts`: a turn is a sequence of acts with at most one birth.
- Theorems {lit}`Acts.session_of` and {lit}`Acts.route_of`: where the sessions and
  routes found after a turn come from.
-/

open Framing SymbolicCrypto

namespace OpenSsmAgent
namespace Coordinator

open Seal Wire Domain Hs Proto

/-- Whether an effect is neither a call of {lit}`seal` nor a message to an agent. -/
def Effect.quiet : Effect → Bool
  | .sealed _ => false
  | .published _ _ _ => false
  | _ => true

/-- An act of the bridge, with its effects. -/
inductive Act : Bridge → List Effect → Bridge → Prop
  | tell {b : Bridge} {effects : List Effect} (h : ∀ e ∈ effects, e.quiet = true) :
      Act b effects b
  | beat {b : Bridge} (lastSeen : Table String Instant) : Act b [] { b with lastSeen := lastSeen }
  | addJob {b : Bridge} {key : HostId × Str} {job : PendingJob} {s : Session}
      (hfree : b.pending.lookup key = none) (hroom : b.pending.size < maxPendingJobs)
      (hsession : b.sessions.get key.1 = some s) : Act b [] (b.addPending key job)
  | dropJob {b : Bridge} (key : HostId × Str) : Act b [] (b.dropPending key)
  | retainJobs {b : Bridge} (keep : HostId × Str → PendingJob → Bool) :
      Act b [] { b with pending := b.pending.retain keep }
  | sealSession {b : Bridge} {host : HostId} {s : Session} (h : b.sessions.get host = some s)
      (topic : String) (hostStr : Str) (payload : Bytes) (ok : Bool) :
      Act b [.sealed s.sealCall, .published topic (.envelope (s.sealDownlink hostStr payload).1) ok]
        (b.setSession host { s with sendSeq := s.sendSeq + 1 })
  | readSession {b : Bridge} {host : HostId} {s : Session} (h : b.sessions.get host = some s)
      (env : Envelope) : Act b [] (b.setSession host (s.openUplink env).2)
  | sealRoute {b : Bridge} {host : HostId} {r : ShellRoute} (h : b.shells.lookup host = some r)
      (topic : String) (hostStr : Str) (frame : StreamFrame) (ok : Bool) :
      Act b [.sealed r.sealCall, .published topic (.envelope (r.sealDownlink hostStr frame).1) ok]
        (b.setRoute host { r with sendSeq := r.sendSeq + 1 })
  | readRoute {b : Bridge} {host : HostId} {r : ShellRoute} (h : b.shells.lookup host = some r)
      (env : Envelope) : Act b [] (b.setRoute host (r.openUplink env).2)
  | dropRoute {b : Bridge} (host : HostId) : Act b [] (b.dropRoute host)

/-- The birth of an allocator in a turn: a session is stored and its hello is
answered, or a route is stored. -/
inductive Birth {fromDer : FromDer} (cfg : BridgeConfig fromDer) (env : StepEnv) :
    BridgeEvent → Bridge → List Effect → Bridge → Prop
  | session {b : Bridge} {topic tenant : String} {payload : Payload} {c : CheckedHello}
      {resp : ServerResponse}
      (hcheck : checkHello cfg.ca env.utcNow tenant payload b.sessions = some c)
      (hresp : c.respond cfg.ca env.eph = .ok resp)
      (hroom : b.sessions.get c.host.hostId = none →
        b.sessions.byHost.size < b.sessions.cap) :
      Birth cfg env (.message topic payload) b
        [env.publishTo (Topics.hsDown c.host.hostId.toStr.text)
          (.serverHello ⟨c.hello.sid, ofPoint resp.serverEph, resp.sig⟩)]
        (b.setSession c.host.hostId (Session.start c.hello.sid resp.keys))
  | route {b : Bridge} {host : HostId} {streamId runAs : Str} {rows cols : UInt32}
      {output : Channel} {s : Session} (hsession : b.sessions.get host = some s) :
      Birth cfg env (.command (.openShell host streamId runAs rows cols output)) b []
        (b.setRoute host
          ⟨streamId, s.deriveStreamKeys streamId.bytes, s.sid, 0, none, output⟩)

/-- A sequence of acts; the flag says whether a birth may still come. -/
inductive Acts {fromDer : FromDer} (cfg : BridgeConfig fromDer) (env : StepEnv)
    (ev : BridgeEvent) : Bool → Bridge → List Effect → Bridge → Prop
  | nil {flag : Bool} {b : Bridge} : Acts cfg env ev flag b [] b
  | act {flag : Bool} {b b' b'' : Bridge} {es es' : List Effect} (h : Act b es b')
      (rest : Acts cfg env ev flag b' es' b'') : Acts cfg env ev flag b (es ++ es') b''
  | birth {b b' b'' : Bridge} {es es' : List Effect} (h : Birth cfg env ev b es b')
      (rest : Acts cfg env ev false b' es' b'') : Acts cfg env ev true b (es ++ es') b''

section Acts

variable {fromDer : FromDer} {cfg : BridgeConfig fromDer} {env : StepEnv} {ev : BridgeEvent}
  {flag : Bool} {b b' b'' : Bridge} {es es' : List Effect} {host : HostId}

/-- One act. -/
theorem Acts.one (h : Act b es b') : Acts cfg env ev flag b es b' := by
  have hacts : Acts cfg env ev flag b (es ++ []) b' := .act h .nil
  rwa [List.append_nil] at hacts

/-- Acts that hold no birth can be put in front. -/
theorem Acts.append (h : Acts cfg env ev false b es b') (h' : Acts cfg env ev flag b' es' b'') :
    Acts cfg env ev flag b (es ++ es') b'' := by
  generalize hfalse : false = closed at h
  induction h with
  | nil => exact h'
  | act hact _ ih =>
      rw [List.append_assoc]
      exact .act hact (ih h' hfalse)
  | birth => cases hfalse

/-- A birth need not come. -/
theorem Acts.weaken (h : Acts cfg env ev false b es b') : Acts cfg env ev flag b es b' := by
  have hacts : Acts cfg env ev flag b (es ++ []) b' := h.append .nil
  rwa [List.append_nil] at hacts

/-- Acts that hold no birth can be put behind. -/
theorem Acts.andThen (h : Acts cfg env ev flag b es b') (h' : Acts cfg env ev false b' es' b'') :
    Acts cfg env ev flag b (es ++ es') b'' := by
  induction h with
  | nil => exact h'.weaken
  | act hact _ ih =>
      rw [List.append_assoc]
      exact .act hact (ih h')
  | birth hbirth _ ih =>
      rw [List.append_assoc]
      exact .birth hbirth (ih h')

/-- An act without effects can be put behind. -/
theorem Acts.andThenSilent (h : Acts cfg env ev flag b es b') (h' : Act b' [] b'') :
    Acts cfg env ev flag b es b'' := by
  have hacts := h.andThen (.one h')
  rwa [List.append_nil] at hacts

/-- An act with one effect can be put in front. -/
theorem Acts.cons {e : Effect} (h : Act b [e] b') (rest : Acts cfg env ev flag b' es b'') :
    Acts cfg env ev flag b (e :: es) b'' :=
  .act h rest

/-- Quiet effects. -/
theorem Acts.tells (h : ∀ e ∈ es, e.quiet = true) : Acts cfg env ev flag b es b :=
  .one (.tell h)

/-- A quiet effect. -/
theorem Act.tellOne {e : Effect} (h : e.quiet = true) : Act b [e] b :=
  .tell (by simpa using h)

/-! ## The acts of each handler -/

/-- The jobs of a host fail. -/
theorem purgeHostJobs_acts (b : Bridge) (host : HostId) :
    Acts cfg env ev false b (purgeHostJobs env b host).2 (purgeHostJobs env b host).1 := by
  have htells : Acts cfg env ev false b (purgeHostJobs env b host).2 b := by
    refine .tells ?_
    intro e he
    obtain ⟨entry, -, rfl⟩ := List.mem_map.mp he
    rfl
  exact htells.andThenSilent (.retainJobs _)

/-- The stale jobs fail. -/
theorem reapStaleJobs_acts (b : Bridge) :
    Acts cfg env ev flag b (reapStaleJobs env b).2 (reapStaleJobs env b).1 := by
  have htells : Acts cfg env ev flag b (reapStaleJobs env b).2 b := by
    refine .tells ?_
    intro e he
    obtain ⟨entry, -, rfl⟩ := List.mem_map.mp he
    rfl
  exact htells.andThenSilent (.retainJobs _)

/-- One allocation on the session and one publish. -/
theorem sealDispatch_acts {session : Session} (hget : b.sessions.get host = some session)
    (payload : Bytes) :
    Acts cfg env ev flag b (sealDispatch env b host session payload).2.1
      (sealDispatch env b host session payload).1 :=
  .one (.sealSession hget _ _ _ _)

/-- One allocation on the route and one publish, after which the route is kept. -/
theorem sealFrame_acts {route : ShellRoute} (hget : b.shells.lookup host = some route)
    (frame : StreamFrame) :
    Acts cfg env ev flag b (sealFrame env host route frame).1
      (b.setRoute host (sealFrame env host route frame).2.1) :=
  .one (.sealRoute hget _ _ _ _)

/-- One allocation on the route and one publish, after which the route is gone. -/
theorem sealFrame_drop_acts {route : ShellRoute} (hget : b.shells.lookup host = some route)
    (frame : StreamFrame) :
    Acts cfg env ev flag b (sealFrame env host route frame).1 (b.dropRoute host) := by
  have hseal : Acts cfg env ev flag b _ _ := sealFrame_acts hget frame
  have hdrop := hseal.andThenSilent (.dropRoute host)
  rwa [Bridge.dropRoute_setRoute] at hdrop

/-- The acts of a message.  Storing a session is the birth; the beacon is its first
seal. -/
theorem Intake.acts {topic : String} {payload : Payload} {out : Bridge × List Effect}
    (h : Intake cfg env b topic payload out) :
    Acts cfg env (.message topic payload) true b out.2 out.1 := by
  cases h with
  | ignored => exact .nil
  | heartbeat htopic => exact .one (.beat _)
  | unanswered htopic hadmitted hpublish hroom =>
      exact .birth (.session hadmitted.checked hadmitted.responded hroom) .nil
  | established htopic hadmitted hpublish hroom =>
      refine Acts.andThen (.birth (.session hadmitted.checked hadmitted.responded hroom) ?_)
        ((purgeHostJobs_acts _ _).andThenSilent (.dropRoute _))
      exact .one (.sealSession (SessionStore.get_set_self _ _ _) _ _ _ _)
  | control htopic hhost hopens hsid =>
      dsimp only
      split
      · exact .act (.readSession hopens.session _) (.one (.tellOne rfl))
      · exact .one (.readSession hopens.session _)
  | unclaimed htopic hhost hopens => exact .one (.readSession hopens.session _)
  | result htopic hhost hopens hdecode hjob =>
      dsimp only
      split
      · exact .act (.readSession hopens.session _) (.one (.tellOne rfl))
      · exact .act (.readSession hopens.session _) (.cons (.tellOne rfl) (.one (.dropJob _)))
  | garbled htopic hhost hopens => exact .one (.readRoute hopens.route _)
  | frame htopic hhost hopens hdecode =>
      exact .act (.readRoute hopens.route _) (.one (.tellOne rfl))
  | lastFrame htopic hhost hopens hdecode =>
      rename_i tenant target e r p f
      have hdrop : Acts cfg env (.message topic payload) true
          (b.setRoute target (r.openUplink e).2) _ _ :=
        sealFrame_drop_acts (Table.lookup_put_self _ _ _) eofFrame
      rw [Bridge.dropRoute_setRoute] at hdrop
      exact .act (.readRoute hopens.route _) (.cons (.tellOne rfl) hdrop)
  | inventory htopic hhost hopens heffects =>
      refine .act (.readSession hopens.session _) (.tells ?_)
      intro effect hmem
      obtain ⟨inv, -, rfl⟩ := heffects effect hmem
      rfl

/-- The acts of a command.  Storing a route is the birth. -/
theorem Handled.acts {cmd : BridgeCommand} {out : Bridge × List Effect}
    (h : Handled env b cmd out) : Acts cfg env (.command cmd) true b out.2 out.1 := by
  cases h with
  | refused message => exact .one (.tellOne rfl)
  | unreached message hget hsent =>
      exact (sealDispatch_acts hget _).andThen (.one (.tellOne rfl))
  | dispatched hfree hroom hget hsent =>
      exact (sealDispatch_acts hget _).andThenSilent
        (.addJob hfree hroom (SessionStore.get_set_self _ _ _))
  | online => exact .one (.tellOne rfl)
  | offline => exact .one (.tellOne rfl)
  | unopened hget hsent => exact (sealDispatch_acts hget _).andThen (.one (.tellOne rfl))
  | @opened target streamId runAs rows cols output s plaintext hget hplain hsent =>
      have hborn : Birth cfg env (.command (.openShell target streamId runAs rows cols output))
          (sealDispatch env b target s plaintext).1 _ _ :=
        .route (SessionStore.get_set_self b.sessions target { s with sendSeq := s.sendSeq + 1 })
      exact .act (.sealSession hget _ _ _ _) (.birth hborn .nil)
  | strayInput => exact .nil
  | typed hlookup hid hsent => exact sealFrame_acts hlookup _
  | cut hlookup hid hsent => exact sealFrame_drop_acts hlookup _
  | strayClose => exact .nil
  | closed hlookup hid => exact sealFrame_drop_acts hlookup _

/-! ## A turn -/

/-- A turn is a sequence of acts with at most one birth. -/
theorem step_acts (cfg : BridgeConfig fromDer) (env : StepEnv) (b : Bridge) (ev : BridgeEvent) :
    Acts cfg env ev true b (step cfg env b ev).2 (step cfg env b ev).1 := by
  cases ev with
  | message topic payload => exact (onMessage_intake cfg env b topic payload).acts
  | command cmd => exact (handleCommand_handled env b cmd).acts
  | sweep => exact reapStaleJobs_acts b

end Acts

/-! ## What acts keep of sessions and routes -/

/-- Two states of one session. -/
def Session.Same (s s' : Session) : Prop :=
  s'.sid = s.sid ∧ s'.keys = s.keys

/-- Two states of one shell route. -/
def ShellRoute.Same (r r' : ShellRoute) : Prop :=
  r'.streamId = r.streamId ∧ r'.streamKeys = r.streamKeys ∧ r'.sid = r.sid ∧ r'.output = r.output

/-- Two steps of one session. -/
theorem Session.Same.trans {s s' s'' : Session} (h : s.Same s') (h' : s'.Same s'') :
    s.Same s'' :=
  ⟨h'.1.trans h.1, h'.2.trans h.2⟩

/-- Two steps of one route. -/
theorem ShellRoute.Same.trans {r r' r'' : ShellRoute} (h : r.Same r') (h' : r'.Same r'') :
    r.Same r'' :=
  ⟨h'.1.trans h.1, h'.2.1.trans h.2.1, h'.2.2.1.trans h.2.2.1, h'.2.2.2.trans h.2.2.2⟩

section Frame

variable {fromDer : FromDer} {cfg : BridgeConfig fromDer} {env : StepEnv} {ev : BridgeEvent}
  {flag : Bool} {b b' : Bridge} {es : List Effect} {host : HostId}

/-- An act starts no session. -/
theorem Act.session_of (h : Act b es b') {s' : Session} (hget : b'.sessions.get host = some s') :
    ∃ s, b.sessions.get host = some s ∧ s.Same s' := by
  have hset : ∀ {other : HostId} {s t : Session}, b.sessions.get other = some s →
      (b.setSession other t).sessions.get host = some s' → s.Same t →
      ∃ s, b.sessions.get host = some s ∧ s.Same s' := by
    intro other s t hother hget hsame
    simp only [Bridge.setSession, SessionStore.get_set] at hget
    split at hget
    · rename_i heq
      obtain rfl := Option.some.inj hget
      exact ⟨s, heq ▸ hother, hsame⟩
    · exact ⟨s', hget, rfl, rfl⟩
  cases h with
  | sealSession hold _ _ _ _ => exact hset hold hget ⟨rfl, rfl⟩
  | readSession hold e => exact hset hold hget ⟨rfl, rfl⟩
  | _ => exact ⟨s', hget, rfl, rfl⟩

/-- An act opens no route. -/
theorem Act.route_of (h : Act b es b') {r' : ShellRoute} (hget : b'.shells.lookup host = some r') :
    ∃ r, b.shells.lookup host = some r ∧ r.Same r' := by
  have hset : ∀ {other : HostId} {r t : ShellRoute}, b.shells.lookup other = some r →
      (b.setRoute other t).shells.lookup host = some r' → r.Same t →
      ∃ r, b.shells.lookup host = some r ∧ r.Same r' := by
    intro other r t hother hget hsame
    simp only [Bridge.setRoute, Table.lookup_put] at hget
    split at hget
    · rename_i heq
      obtain rfl := Option.some.inj hget
      exact ⟨r, heq ▸ hother, hsame⟩
    · exact ⟨r', hget, rfl, rfl, rfl, rfl⟩
  cases h with
  | sealRoute hold _ _ _ _ => exact hset hold hget ⟨rfl, rfl, rfl, rfl⟩
  | readRoute hold e => exact hset hold hget ⟨rfl, rfl, rfl, rfl⟩
  | dropRoute other =>
      simp only [Bridge.dropRoute, Table.lookup_drop] at hget
      split at hget
      · cases hget
      · exact ⟨r', hget, rfl, rfl, rfl, rfl⟩
  | _ => exact ⟨r', hget, rfl, rfl, rfl, rfl⟩

/-- A session after a turn was there before, or was derived in a handshake. -/
theorem Acts.session_of (h : Acts cfg env ev flag b es b') {s' : Session}
    (hget : b'.sessions.get host = some s') :
    (∃ s, b.sessions.get host = some s ∧ s.Same s') ∨ ∃ p q, SessionKeysOf p q s'.keys := by
  induction h with
  | nil => exact Or.inl ⟨s', hget, rfl, rfl⟩
  | act hact _ ih =>
      rcases ih hget with ⟨s, hs, hsame⟩ | hnew
      · obtain ⟨t, ht, hsame'⟩ := hact.session_of hs
        exact Or.inl ⟨t, ht, hsame'.trans hsame⟩
      · exact Or.inr hnew
  | birth hbirth _ ih =>
      rcases ih hget with ⟨s, hs, hsame⟩ | hnew
      · cases hbirth with
        | session hcheck hresp =>
            simp only [Bridge.setSession, SessionStore.get_set] at hs
            split at hs
            · obtain rfl := Option.some.inj hs
              right
              rw [hsame.2]
              exact ⟨_, _, CheckedHello.sessionKeysOf hresp⟩
            · exact Or.inl ⟨s, hs, hsame⟩
        | route hsession => exact Or.inl ⟨s, hs, hsame⟩
      · exact Or.inr hnew

/-- A route after a turn was there before, or was opened by the turn's command on
the keys of some session. -/
theorem Acts.route_of (h : Acts cfg env ev flag b es b') {r' : ShellRoute}
    (hget : b'.shells.lookup host = some r') :
    (∃ r, b.shells.lookup host = some r ∧ r.Same r') ∨
      ∃ runAs rows cols, ∃ keys : SessionKeys,
        ev = .command (.openShell host r'.streamId runAs rows cols r'.output) ∧
        r'.streamKeys = keys.deriveStream r'.streamId.bytes := by
  induction h with
  | nil => exact Or.inl ⟨r', hget, rfl, rfl, rfl, rfl⟩
  | act hact _ ih =>
      rcases ih hget with ⟨r, hr, hsame⟩ | hnew
      · obtain ⟨t, ht, hsame'⟩ := hact.route_of hr
        exact Or.inl ⟨t, ht, hsame'.trans hsame⟩
      · exact Or.inr hnew
  | birth hbirth hrest ih =>
      rcases ih hget with ⟨r, hr, hsame⟩ | hnew
      · cases hbirth with
        | session hcheck hresp => exact Or.inl ⟨r, hr, hsame⟩
        | route hsession =>
            rename_i other streamId runAs rows cols output s
            simp only [Bridge.setRoute, Table.lookup_put] at hr
            split at hr
            · rename_i heq
              obtain rfl := Option.some.inj hr
              obtain ⟨hid, hkeys, -, hout⟩ := hsame
              exact Or.inr
                ⟨runAs, rows, cols, s.keys, by rw [heq, hid, hout], by rw [hkeys, hid]; rfl⟩
            · exact Or.inl ⟨r, hr, hsame⟩
      · exact Or.inr hnew

end Frame

end Coordinator
end OpenSsmAgent
