import Ts3Video.Cor.Delivery

/-!
# When frames are delivered promptly

The bytes a connection writes are those of the frames it accepted, in order. The peer delivers
each of them when it meets its last byte, except for a frame without a body, whose end it notices
only with the first byte of the next one.
-/

namespace Ts3Video.QCorConnection

open QCorConnectionPrivate

/-- All frames have been delivered to the application or to the replies that wait for them, and
nothing of the stream is left in the parser or in front of it. -/
def DeliveredPromptly (d : QCorConnectionPrivate) (reads : List (List UInt8))
    (frames : List QCorFrame) : Prop :=
  (onSocketReadyRead { d } reads).d.delivered = d.delivered ++ outcomes d.replies frames ∧
    (onSocketReadyRead { d } reads).corParser.state = .none ∧
      (onSocketReadyRead { d } reads).buffer = []

/-- Once an idle peer has read all that a connection wrote for the frames it accepted, these frames
have all been delivered unless the last one has no body, which is still pending then. -/
theorem delivered_promptly_iff {events : List Event} {s : QCorConnection} {out : List Output}
    (hrun : Runs.run step {} events = some (s, out)) (hdrained : s.d.sendQueue = [])
    (hsize : ∀ item ∈ accepted out, item.data.length < 2 ^ 32) (d : QCorConnectionPrivate)
    {reads : List (List UInt8)} (hreads : reads.flatten = written out) :
    DeliveredPromptly d reads ((accepted out).map frameOf) ↔
      ∀ item ∈ (accepted out).getLast?, item.data ≠ [] := by
  obtain ⟨hitems, hwritten⟩ := run_written (ready_of_idle _) hrun
  have hbytes : written out = (accepted out).flatMap write := by
    simpa [hdrained] using hwritten
  have hread : (((onSocketReadyRead { d } reads).parserState,
      (onSocketReadyRead { d } reads).buffer) : _ × List UInt8) =
        consumeIdle d ((accepted out).flatMap write) := by
    rw [onSocketReadyRead_eq (ready_of_idle d), hreads, hbytes]
    rfl
  constructor
  · rintro ⟨-, hidle, -⟩ last hlast hempty
    obtain ⟨items, hsplit⟩ := List.getLast?_eq_some_iff.mp hlast
    rw [hsplit] at hread hitems hsize
    have hbefore := consume_items (fun item hmem => hitems item (List.mem_append_left _ hmem))
      (fun item hmem => hsize item (List.mem_append_left _ hmem))
      (fun item _ => List.append_ne_nil_of_right_ne_nil _ (write_ne_nil last)) d
    rw [List.flatMap_append, List.flatMap_singleton, hbefore] at hread
    have hpending := consume_last_item (hitems last (by simp)) hempty
      ((items.map frameOf).foldl deliver d)
    rw [← hread] at hpending
    exact absurd (hidle.symm.trans hpending) (by decide)
  · intro hlast
    have hall := consume_items hitems hsize
      (fun item hmem => by rw [List.append_nil]; exact hlast item hmem) d
    rw [List.append_nil] at hall
    rw [hall, consumeIdle, Resumable.consume_nil, Prod.mk.injEq, Prod.mk.injEq] at hread
    obtain ⟨⟨hparser, hd⟩, hbuffer⟩ := hread
    refine ⟨?_, ?_, hbuffer⟩
    · rw [hd, delivered_foldl]
    · rw [hparser]

/-- A request, and a response without a body that is followed by another request. -/
theorem delivered_promptly_threeFrames :
    let out : List Output :=
      [.accepted (newItem COR_FRAME_TYPE_REQUEST 1 7 [1, 2]),
        .written (write (newItem COR_FRAME_TYPE_REQUEST 1 7 [1, 2])),
        .accepted (newItem COR_FRAME_TYPE_RESPONSE 9 0 []), .written [],
        .accepted (newItem COR_FRAME_TYPE_REQUEST 2 0 [3]), .written [],
        .written (write (newItem COR_FRAME_TYPE_RESPONSE 9 0 [])),
        .written (write (newItem COR_FRAME_TYPE_REQUEST 2 0 [3]))]
    DeliveredPromptly {} [(written out).take 20, (written out).drop 20]
        ((accepted out).map frameOf) ↔
      ∀ item ∈ (accepted out).getLast?, item.data ≠ [] := by
  intro out
  have hrun : Runs.run step {} [.sendRequest 7 [1, 2], .sendResponse 9 0 [], .sendRequest 0 [3],
      .onCurrentSendItemDone, .onCurrentSendItemDone] = some (_, out) := rfl
  exact delivered_promptly_iff hrun rfl (by decide) {} (by decide)

/-- A request without a body is not delivered although all its bytes have been read. -/
theorem empty_body_pending :
    ¬ ∀ events s out, Runs.run step {} events = some (s, out) → s.d.sendQueue = [] →
      (∀ item ∈ accepted out, item.data.length < 2 ^ 32) →
        ∀ d reads, reads.flatten = written out →
          DeliveredPromptly d reads ((accepted out).map frameOf) := by
  intro h
  have hpending := h [.sendRequest 0 []] _ _ rfl rfl (by decide) {}
    [write (newItem COR_FRAME_TYPE_REQUEST 1 0 [])] (by decide)
  exact absurd hpending.2.1 (by decide)

end Ts3Video.QCorConnection
