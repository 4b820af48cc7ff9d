import Mathlib.Data.List.Basic

/-!
# Channels

A mailbox is a channel with one receiver and a bounded buffer.  What the receiver has
taken and what is still buffered make up the stream it sees; posting appends to that
stream, taking moves within it.

A sender and a receiver may also be joined by a channel that delivers every message in
the order it was sent.  To show a relation between the two whenever the channel is
empty, it is enough to look at a system without a channel, in which a message is
received at once: the invariant is that however the receiver takes in what is in
flight, the relation then holds.

Main results:

- Theorems {lit}`Mailbox.stream_post` and {lit}`Mailbox.stream_take`: a post appends to
  the stream, and taking leaves it as it is.
- Theorem {lit}`Fifo.Settles.receive`: receiving keeps the invariant.
- Theorem {lit}`Fifo.Settles.send`: sending keeps it, if the relation survives sending
  and receiving at once.
- Theorem {lit}`Fifo.Settles.of_empty`: with an empty channel the relation holds.
-/

/-- A channel: what its receiver has taken, what is buffered, and whether the receiver
is still there. -/
structure Mailbox (A : Type*) where
  taken : List A
  buffer : List A
  attached : Bool

namespace Mailbox

variable {A : Type*}

/-- A channel that was just made. -/
def new : Mailbox A := ⟨[], [], true⟩

/-- All the receiver has seen or can still see. -/
def stream (m : Mailbox A) : List A := m.taken ++ m.buffer

/-- Whether a buffer of the given capacity takes one more. -/
def HasRoom (cap : Nat) (m : Mailbox A) : Prop := m.buffer.length < cap

instance (cap : Nat) (m : Mailbox A) : Decidable (m.HasRoom cap) :=
  inferInstanceAs (Decidable (_ < _))

/-- Put one more into the buffer. -/
def post (m : Mailbox A) (a : A) : Mailbox A := { m with buffer := m.buffer ++ [a] }

/-- The receiver takes the oldest. -/
def take (m : Mailbox A) : Mailbox A :=
  match m.buffer with
  | [] => m
  | a :: rest => { m with taken := m.taken ++ [a], buffer := rest }

/-- The receiver goes away; what is buffered is lost. -/
def detach (m : Mailbox A) : Mailbox A := { m with buffer := [], attached := false }

/-- A post is the last of the stream. -/
theorem stream_post (m : Mailbox A) (a : A) : (m.post a).stream = m.stream ++ [a] :=
  (List.append_assoc _ _ _).symm

@[simp] theorem attached_post (m : Mailbox A) (a : A) : (m.post a).attached = m.attached := rfl

/-- Membership after a post. -/
theorem mem_stream_post {m : Mailbox A} {a b : A} :
    b ∈ (m.post a).stream ↔ b ∈ m.stream ∨ b = a := by
  rw [stream_post, List.mem_append, List.mem_singleton]

/-- Taking loses nothing. -/
@[simp] theorem stream_take (m : Mailbox A) : m.take.stream = m.stream := by
  obtain ⟨taken, buffer, attached⟩ := m
  cases buffer <;> simp [take, stream]

@[simp] theorem attached_take (m : Mailbox A) : m.take.attached = m.attached := by
  obtain ⟨taken, buffer, attached⟩ := m
  cases buffer <;> rfl

end Mailbox

namespace Fifo

variable {A B M : Type*} {recv : A → M → A → Prop} {good : B → A → Prop}

/-- The receiver takes in a list of messages. -/
inductive Drains (recv : A → M → A → Prop) : A → List M → A → Prop
  | nil {a : A} : Drains recv a [] a
  | cons {a a' a'' : A} {m : M} {ms : List M} (first : recv a m a')
      (rest : Drains recv a' ms a'') : Drains recv a (m :: ms) a''

/-- The front is drained first. -/
theorem drains_append {a c : A} {ms ms' : List M} (h : Drains recv a (ms ++ ms') c) :
    ∃ b, Drains recv a ms b ∧ Drains recv b ms' c := by
  induction ms generalizing a with
  | nil => exact ⟨a, .nil, h⟩
  | cons m ms ih =>
      cases h with
      | cons first rest =>
          obtain ⟨b, hfront, hback⟩ := ih rest
          exact ⟨b, .cons first hfront, hback⟩

/-- One message is received. -/
theorem drains_singleton {a c : A} {m : M} (h : Drains recv a [m] c) : recv a m c := by
  cases h with
  | cons first rest =>
      cases rest
      exact first

/-- Nothing to drain changes nothing. -/
theorem drains_nil {a c : A} (h : Drains recv a [] c) : c = a := by
  cases h
  rfl

/-- However the receiver takes in what is in flight, the relation then holds. -/
def Settles (recv : A → M → A → Prop) (good : B → A → Prop) (b : B) (a : A) (ms : List M) :
    Prop :=
  ∀ a', Drains recv a ms a' → good b a'

/-- Ends that agree, nothing in flight. -/
theorem settles_empty {b : B} {a : A} (h : good b a) : Settles recv good b a [] := by
  intro a' hdrains
  rw [drains_nil hdrains]
  exact h

/-- And conversely. -/
theorem Settles.of_empty {b : B} {a : A} (h : Settles recv good b a []) : good b a :=
  h a .nil

/-- Receiving the oldest message. -/
theorem Settles.receive {b : B} {a a' : A} {m : M} {ms : List M}
    (h : Settles recv good b a (m :: ms)) (hm : recv a m a') : Settles recv good b a' ms :=
  fun a'' hrest => h a'' (.cons hm hrest)

/-- Sending behind what is in flight. -/
theorem Settles.send {b b' : B} {a : A} {ms sent : List M} (h : Settles recv good b a ms)
    (hsend : ∀ a' a'', good b a' → Drains recv a' sent a'' → good b' a'') :
    Settles recv good b' a (ms ++ sent) := by
  intro a'' hdrains
  obtain ⟨a', hfront, hback⟩ := drains_append hdrains
  exact hsend a' a'' (h a' hfront) hback

end Fifo
