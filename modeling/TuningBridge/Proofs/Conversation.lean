import TuningBridge.Proofs.Exchange

/-!
# Conversations

A stream starts with a longest run of well-formed packets, and a session serves exactly these: each
packet is carried out and answered before the next one is read.  What is left of the stream is cut
off, names no operation or declares too much, and ends the session without another command or
answer.
-/

namespace TuningBridge

/-- The longest run of well-formed packets that a stream starts with, and what is left behind it. -/
structure Packet.LongestRun (family : Family) (limit : Nat) (stream : Bytes) (packets : List Packet)
    (rest : Bytes) : Prop where
  stream_eq : stream = packets.flatMap Packet.bytes ++ rest
  wellFormed : ∀ packet ∈ packets, packet.WellFormed family limit
  longest : ∀ others : List Packet, (∀ packet ∈ others, packet.WellFormed family limit) →
    others.flatMap Packet.bytes <+: stream → others <+: packets

/-- What a session has done when it has served packets and `left` is left of its stream. -/
structure Session.HasServed (before after : Session) (packets : List Packet) (left : Bytes) :
    Prop where
  stream : after.link.stream = left
  accepted : after.link.accepted =
    before.link.accepted ++ (Packet.replies before.worker packets).flatMap Packet.bytes
  worker : after.worker = before.worker.performAll (Packet.commands packets)
  payloadLimit : after.payloadLimit = before.payloadLimit
  ending : after.link.ending = before.link.ending

/-- How a conversation ends with an error: a peer that hangs up ends it well. -/
def SessionM.ended (error : Error) (after : Session) : EStateM.Result Error Session Unit :=
  match error with
  | .connectionClosed => .ok () after
  | error => .error error after

namespace Packet

variable {family : Family} {limit : Nat}

/-- A stream starts with a run of packets behind which no other packet stands. -/
private theorem exists_run (stream : Bytes) : ∃ packets : List Packet, ∃ rest : Bytes,
    stream = packets.flatMap bytes ++ rest ∧ (∀ packet ∈ packets, WellFormed packet family limit) ∧
      ∀ packet, WellFormed packet family limit → ¬packet.bytes <+: rest := by
  induction hlength : stream.length using Nat.strong_induction_on generalizing stream with
  | _ length ih =>
    by_cases hnext : ∃ packet, WellFormed packet family limit ∧ packet.bytes <+: stream
    · obtain ⟨packet, hformed, left, rfl⟩ := hnext
      have hshorter : left.length < length := by
        have hpos := List.length_pos_iff.mpr hformed.bytes_ne_nil
        rw [List.length_append] at hlength
        omega
      obtain ⟨packets, rest, rfl, hall, hnone⟩ := ih left.length hshorter left rfl
      refine ⟨packet :: packets, rest, ?_, List.forall_mem_cons.mpr ⟨hformed, hall⟩, hnone⟩
      rw [List.flatMap_cons, List.append_assoc]
    · refine ⟨[], stream, rfl, by simp,
        fun packet hformed hbegins => hnext ⟨packet, hformed, hbegins⟩⟩

/-- No run is longer than one behind which no packet stands. -/
private theorem prefix_of_run {packets others : List Packet} {rest : Bytes}
    (hall : ∀ packet ∈ packets, WellFormed packet family limit)
    (hnone : ∀ packet, WellFormed packet family limit → ¬packet.bytes <+: rest)
    (hothers : ∀ packet ∈ others, WellFormed packet family limit)
    (hbegins : others.flatMap bytes <+: packets.flatMap bytes ++ rest) : others <+: packets := by
  induction packets generalizing others with
  | nil =>
    cases others with
    | nil => exact List.prefix_rfl
    | cons packet others =>
      rw [List.flatMap_cons] at hbegins
      exact absurd ((List.prefix_append _ _).trans hbegins)
        (hnone packet (hothers packet List.mem_cons_self))
  | cons packet packets ih =>
    cases others with
    | nil => exact List.nil_prefix
    | cons other others =>
      obtain ⟨hformed, htail⟩ := List.forall_mem_cons.mp hall
      obtain ⟨hother, hothers⟩ := List.forall_mem_cons.mp hothers
      rw [List.flatMap_cons, List.flatMap_cons, List.append_assoc] at hbegins
      obtain rfl : other = packet := hother.eq_of_prefix hformed
        ((List.prefix_append _ _).trans hbegins) (List.prefix_append _ _)
      rw [List.prefix_append_right_inj] at hbegins
      exact List.cons_prefix_cons.mpr ⟨rfl, ih htail hothers hbegins⟩

/-- There are no more packets than bytes. -/
private theorem length_le_flatMap {packets : List Packet}
    (hall : ∀ packet ∈ packets, WellFormed packet family limit) :
    packets.length ≤ (packets.flatMap bytes).length := by
  induction packets with
  | nil => exact le_rfl
  | cons packet packets ih =>
    obtain ⟨hformed, htail⟩ := List.forall_mem_cons.mp hall
    have hpos := List.length_pos_iff.mpr hformed.bytes_ne_nil
    have hle := ih htail
    rw [List.length_cons, List.flatMap_cons, List.length_append]
    omega

end Packet

namespace SessionM

open Actions

/-- Serving packets in two parts. -/
private theorem run_serveUpTo_add {first : Nat} (second : Nat) {session after : Session}
    (h : (serveUpTo first).run session = .ok () after) :
    (serveUpTo (first + second)).run session = (serveUpTo second).run after := by
  induction first generalizing session with
  | zero =>
    rw [Nat.zero_add]
    cases h
    rfl
  | succ first ih =>
    rw [Nat.succ_add, serveUpTo]
    rw [serveUpTo] at h
    cases hreceive : receivePacket.run session with
    | error error next =>
      rw [run_bind_error hreceive] at h
      cases h
    | ok packet next =>
      rw [run_bind_ok hreceive] at h ⊢
      cases hserve : (serve packet).run next with
      | error error last =>
        rw [run_bind_error hserve] at h
        cases h
      | ok value last =>
        rw [run_bind_ok hserve] at h ⊢
        exact ih h

/-- Well-formed packets are served one after the other, and nothing behind them is read. -/
theorem run_serveUpTo {session : Session} {packets : List Packet} {rest : Bytes}
    (hall : ∀ packet ∈ packets, packet.WellFormed session.worker.family session.payloadLimit)
    (halive : session.worker.isAlive = true)
    (hreply : ∀ packet ∈ packets, packet.header.isReadRequest = true →
      ¬session.worker.family.OverflowsReply packet.header)
    (hroom : session.link.HasRoom
      ((Packet.replies session.worker packets).flatMap Packet.bytes).length)
    (hs : session.link.stream = packets.flatMap Packet.bytes ++ rest) :
    ∃ after, (serveUpTo packets.length).run session = .ok () after ∧
      session.HasServed after packets rest := by
  induction packets generalizing session with
  | nil =>
    refine ⟨session, rfl, hs, ?_, rfl, rfl, rfl⟩
    rw [Packet.replies, List.flatMap_nil, List.append_nil]
  | cons packet packets ih =>
    obtain ⟨hformed, htail⟩ := List.forall_mem_cons.mp hall
    obtain ⟨hfirst, hothers⟩ := List.forall_mem_cons.mp hreply
    rw [List.flatMap_cons, List.append_assoc] at hs
    rw [Packet.replies, List.flatMap_append] at hroom
    let past := session.past packet.header packet.bytes.length
    have hroom' : past.link.HasRoom
        ((packet.reply? past.worker).toList.flatMap Packet.bytes).length :=
      hroom.mono (by rw [List.length_append]; exact Nat.le_add_right _ _)
    obtain ⟨journal, hserve⟩ : ∃ journal, (serve packet).run past = .ok ()
        { past with
          link := past.link.deliver ((packet.reply? session.worker).toList.flatMap Packet.bytes)
          worker := session.worker.performAll (Packet.commands [packet])
          journal } := run_serve hformed halive hfirst hroom'
    let next : Session :=
      { past with
        link := past.link.deliver ((packet.reply? session.worker).toList.flatMap Packet.bytes)
        worker := session.worker.performAll (Packet.commands [packet])
        journal }
    have hfamily : next.worker.family = session.worker.family := session.worker.family_performAll _
    have hnext : next.link.stream = packets.flatMap Packet.bytes ++ rest := by
      rw [Link.stream_deliver, Session.stream_past, hs, List.drop_left]
    obtain ⟨after, hrun, hserved⟩ := @ih next (by rwa [hfamily])
      ((session.worker.isAlive_performAll _).trans halive) (by rwa [hfamily]) hroom.deliver hnext
    refine ⟨after, ?_, hserved.stream, ?_, ?_, hserved.payloadLimit, hserved.ending⟩
    · rw [List.length_cons, serveUpTo, run_bind_ok (run_receivePacket hformed hs),
        run_bind_ok hserve]
      exact hrun
    · rw [hserved.accepted, Packet.replies, List.flatMap_append, ← List.append_assoc]
      rfl
    · rw [hserved.worker, ← Worker.performAll_append, ← Packet.commands_append]
      rfl

/-- What is left behind a run of packets ends the conversation. -/
private theorem run_serveUpTo_error {session after : Session} {error : Error}
    (h : receivePacket.run session = .error error after) (count : Nat) :
    (serveUpTo (count + 1)).run session = .error error after := by
  rw [serveUpTo, run_bind_error h]

/-- A conversation ends where serving packets fails. -/
private theorem run_serveAll {session after : Session} {error : Error}
    (h : (serveUpTo (session.link.unread + 1)).run session = .error error after) :
    serveAll.run session = ended error after := by
  have hcaught {handle : Error → SessionM (Except Unit Unit)} : (tryCatch (do
      let r ← serveUpTo (session.link.unread + 1)
      (pure r : ExceptT Unit SessionM Unit).run) handle).run session = (handle error).run after :=
    run_tryCatch_error (run_bind_error h _) _
  rw [serveAll, EStateM.run_bind, EStateM.run_get]
  dsimp only
  rw [EStateM.run_bind, hcaught]
  cases error <;> rfl

end SessionM

/-- As long as the worker is there, no reserved bytes overflow a reply and the peer accepts every
answer, a session serves exactly the longest run of well-formed packets of its stream.  After every
part of the run the requests of that part, and no others, have been carried out in order, every read
request among them has been answered with its header and the bytes read or zeros, and the rest of
the stream has not been read.  What is left behind the run ends the session without another command
or answer. -/
theorem Session.serves_longest_run (session : Session) (halive : session.worker.isAlive = true) :
    ∃ packets rest, Packet.LongestRun session.worker.family session.payloadLimit session.link.stream
        packets rest ∧
      (Packet.replies session.worker packets).length = packets.countP (·.header.isReadRequest) ∧
      ((∀ packet ∈ packets, packet.header.isReadRequest = true →
        ¬session.worker.family.OverflowsReply packet.header) →
      session.link.HasRoom ((Packet.replies session.worker packets).flatMap Packet.bytes).length →
        (∀ served waiting, packets = served ++ waiting → ∃ after,
          (SessionM.serveUpTo served.length).run session = .ok () after ∧
          session.HasServed after served (waiting.flatMap Packet.bytes ++ rest)) ∧
        ∃ error left after, Reception session.worker.family session.payloadLimit
            session.link.ending.toError rest (.error error) left ∧
          SessionM.serveAll.run session = SessionM.ended error after ∧
          session.HasServed after packets left) := by
  obtain ⟨packets, rest, hs, hall, hnone⟩ := Packet.exists_run session.link.stream
  refine ⟨packets, rest, ⟨hs, hall, fun others hothers hbegins => ?_⟩,
    Packet.length_replies hall session.worker, fun hreply hroom => ⟨?_, ?_⟩⟩
  · exact Packet.prefix_of_run hall hnone hothers (hs ▸ hbegins)
  · rintro served waiting rfl
    rw [List.flatMap_append, List.append_assoc] at hs
    rw [Packet.replies_append, List.flatMap_append, List.length_append] at hroom
    exact SessionM.run_serveUpTo
      (fun packet hmem => hall packet (List.mem_append_left _ hmem)) halive
      (fun packet hmem => hreply packet (List.mem_append_left _ hmem))
      (hroom.mono (Nat.le_add_right _ _)) hs
  · obtain ⟨after, hrun, hserved⟩ := SessionM.run_serveUpTo hall halive hreply hroom hs
    have hfamily : after.worker.family = session.worker.family :=
      hserved.worker ▸ session.worker.family_performAll _
    obtain ⟨outcome, left, hreception⟩ : ∃ outcome left, Reception session.worker.family
        session.payloadLimit session.link.ending.toError rest outcome left :=
      Reception.exists_reception rest
    cases outcome with
    | ok packet =>
      obtain ⟨hformed, rfl⟩ := Reception.ok_iff.mp hreception
      exact absurd (List.prefix_append _ _) (hnone packet hformed)
    | error error =>
      have hreception' : Reception after.worker.family after.payloadLimit after.link.ending.toError
          after.link.stream (.error error) left := by
        rwa [hfamily, hserved.payloadLimit, hserved.ending, hserved.stream]
      obtain ⟨pieces, journal, hfail, hleft⟩ := SessionM.run_receivePacket_error hreception'
      let final : Session := { after with link := { after.link with incoming := pieces }, journal }
      refine ⟨error, left, final, hreception, SessionM.run_serveAll ?_, hleft, hserved.accepted,
        hserved.worker, hserved.payloadLimit, hserved.ending⟩
      obtain ⟨more, hmore⟩ := Nat.exists_eq_add_of_le (Packet.length_le_flatMap hall)
      have hcount : session.link.unread + 1 = packets.length + (more + rest.length + 1) := by
        have hunread : session.link.unread = session.link.stream.length := rfl
        rw [hunread, hs, List.length_append]
        omega
      rw [hcount, SessionM.run_serveUpTo_add _ hrun]
      exact SessionM.run_serveUpTo_error hfail _

/-- A write, a read request and the first byte of another packet are served in this way. -/
theorem Session.serves_write_and_read :
    let session : Session :=
      { link := { incoming := [[0x09, 0, 0, 0, 14, 1, 0, 4, 0x10, 0, 1, 2, 3, 4],
          [0x0A, 0, 8, 1, 0, 4, 0x10, 0], [0x09]] }
        worker := { chip := { family := .adau1x0x, transport := .memory {}, useSafeload := false } }
        payloadLimit := 16 }
    ∃ packets rest error left after,
      Packet.LongestRun .adau1x0x 16 session.link.stream packets rest ∧
      SessionM.serveAll.run session = SessionM.ended error after ∧
      session.HasServed after packets left := by
  intro session
  obtain ⟨packets, rest, hrun, _, hserve⟩ := serves_longest_run session rfl
  have hreply : ∀ packet ∈ packets, packet.header.isReadRequest = true →
      ¬session.worker.family.OverflowsReply packet.header := fun _ _ _ hover => by cases hover.1
  have hroom : session.link.HasRoom
      ((Packet.replies session.worker packets).flatMap Packet.bytes).length :=
    ⟨rfl, fun room hroom => by cases hroom⟩
  obtain ⟨error, left, after, _, hended, hserved⟩ := (hserve hreply hroom).2
  exact ⟨packets, rest, error, left, after, hrun, hended, hserved⟩

end TuningBridge
