import Mathlib.Data.List.Basic

/-!
# Buffered channels

A channel of Go as far as one goroutine at a time sees it: `send` and `receive` are `none` where the
goroutine has to wait. A send on a closed channel and a second `close` panic; whoever uses a channel
checks `closed` first.
-/

structure Channel (Message : Type*) where
  capacity : Nat
  buffer : List Message
  closed : Bool
  fits : buffer.length ≤ capacity

namespace Channel

variable {Message : Type*}

def make (capacity : Nat) : Channel Message := ⟨capacity, [], false, Nat.zero_le capacity⟩

def isFull (channel : Channel Message) : Bool := channel.capacity ≤ channel.buffer.length

def send (message : Message) (channel : Channel Message) : Option (Channel Message) :=
  if h : channel.isFull then none
  else
    some { channel with
      buffer := channel.buffer ++ [message]
      fits := by
        simp only [isFull, decide_eq_true_eq] at h
        simp only [List.length_append, List.length_singleton]
        omega }

def receive (channel : Channel Message) : Option (Message × Channel Message) :=
  match h : channel.buffer with
  | [] => none
  | message :: rest => some (message, { channel with
      buffer := rest
      fits := by
        have hfits := channel.fits
        rw [h, List.length_cons] at hfits
        omega })

def close (channel : Channel Message) : Channel Message := { channel with closed := true }

theorem send_eq_none_iff {message : Message} {channel : Channel Message} :
    channel.send message = none ↔ channel.isFull = true := by
  unfold send
  split <;> simp_all

theorem capacity_send {message : Message} {channel channel' : Channel Message}
    (h : channel.send message = some channel') : channel'.capacity = channel.capacity := by
  unfold send at h
  split at h
  · cases h
  · cases h
    rfl

theorem buffer_send {message : Message} {channel channel' : Channel Message}
    (h : channel.send message = some channel') : channel'.buffer = channel.buffer ++ [message] := by
  unfold send at h
  split at h
  · cases h
  · cases h
    rfl

theorem closed_send {message : Message} {channel channel' : Channel Message}
    (h : channel.send message = some channel') : channel'.closed = channel.closed := by
  unfold send at h
  split at h
  · cases h
  · cases h
    rfl

theorem closed_receive {message : Message} {channel channel' : Channel Message}
    (h : channel.receive = some (message, channel')) : channel'.closed = channel.closed := by
  unfold receive at h
  split at h
  · cases h
  · cases h
    rfl

theorem receive_cases {message : Message} {channel channel' : Channel Message}
    (h : channel.receive = some (message, channel')) :
    channel.buffer = message :: channel'.buffer ∧ channel'.capacity = channel.capacity := by
  unfold receive at h
  split at h
  · cases h
  · rename_i hbuffer
    cases h
    exact ⟨hbuffer, rfl⟩

theorem isFull_of_receive {message : Message} {channel channel' : Channel Message}
    (h : channel.receive = some (message, channel')) : channel'.isFull = false := by
  obtain ⟨hbuffer, hcapacity⟩ := receive_cases h
  have hfits := channel.fits
  rw [hbuffer, List.length_cons] at hfits
  simp only [isFull, hcapacity, decide_eq_false_iff_not]
  omega

theorem exists_receive_of_isFull {channel : Channel Message} (hcapacity : 0 < channel.capacity)
    (h : channel.isFull = true) : ∃ message channel', channel.receive = some (message, channel') := by
  unfold receive
  split
  · rename_i hbuffer
    simp only [isFull, hbuffer, List.length_nil, decide_eq_true_eq] at h
    omega
  · exact ⟨_, _, rfl⟩

end Channel
