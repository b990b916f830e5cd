import Mathlib.Data.List.Nodup
import Ts3Video.Library.Parts
import Ts3Video.Server.Tables

/-!
# Pages of the channel list

A request for channels names an offset and a limit. Both are checked, but the answer lists all channels. It is
the page that was asked for only if that page has all channels as well.
-/

namespace Ts3Video

open Std (ExtTreeMap)

/-- The parameters with which a client asks for a page of the channel list. -/
def NetworkClient.getChannelList (offset limit : ℤ) : QJsonObject :=
  [("offset", .ofInt offset), ("limit", .ofInt limit)]

namespace GetChannelListAction

/-- The offset of a request. -/
def offset (req : ActionData) : ℤ := (req.params.value "offset").toInt

/-- The limit of a request. -/
def limit (req : ActionData) : ℤ := (req.params.value "limit").toInt

/-- The offset and the limit pass their check. -/
def InRange (s : VirtualServer) (req : ActionData) : Prop :=
  0 ≤ offset req ∧ offset req < s.id2channel.size ∧ 0 < limit req

/-- All channels of the server, in the order of their ids. -/
def IsSorted (s : VirtualServer) (channels : List ServerChannelEntity) : Prop :=
  channels.Perm (s.id2channel.toList.map Prod.snd) ∧ channels.Pairwise fun a b => a.id < b.id

/-- The objects that describe channels. -/
def objects (channels : List ServerChannelEntity) : List QJsonValue :=
  channels.map fun c => .object c.toQJsonObject

/-- The channels listed in an answer, as the client reads it. -/
def listed : List Effect → List QJsonValue
  | [.sendResponse _ _ document] =>
    match JsonProtocolHelper.fromJsonResponse (some (.object document)) with
    | some (_, params, _) => (params.value "channels").toArray
    | none => []
  | _ => []

variable {s : VirtualServer} {channels : List ServerChannelEntity} {req : ActionData}

/-- The channels of a server can be put in the order of their ids. -/
theorem exists_isSorted (hkeyed : s.Keyed) : ∃ channels, IsSorted s channels := by
  refine ⟨_, List.Perm.refl _, List.pairwise_map.mpr ?_⟩
  have hkeys : s.id2channel.toList.Pairwise fun a b => compare a.1 b.1 = .lt :=
    ExtTreeMap.ordered_keys_toList
  refine hkeys.imp_of_mem fun {a b} ha hb hlt => ?_
  rw [hkeyed.channel (ExtTreeMap.mem_toList_iff_getElem?_eq_some.mp ha),
    hkeyed.channel (ExtTreeMap.mem_toList_iff_getElem?_eq_some.mp hb)]
  exact compare_lt_iff_lt.mp hlt

/-- The sorted list of the channels is the only one in the order of their ids. -/
theorem mergeSort_eq (h : IsSorted s channels) :
    ((s.id2channel.toList.map Prod.snd).mergeSort fun a b => a.id ≤ b.id) = channels := by
  have hnodup : (channels.map fun c => c.id).Nodup := (List.pairwise_map.mpr h.2).imp ne_of_lt
  have hperm : ((s.id2channel.toList.map Prod.snd).mergeSort fun a b => a.id ≤ b.id).Perm channels :=
    (List.mergeSort_perm _ _).trans h.1.symm
  have htrans : ∀ a b c : ServerChannelEntity, decide (a.id ≤ b.id) = true → decide (b.id ≤ c.id) = true →
      decide (a.id ≤ c.id) = true := fun _ _ _ hab hbc =>
    decide_eq_true (Int.le_trans (of_decide_eq_true hab) (of_decide_eq_true hbc))
  have htotal : ∀ a b : ServerChannelEntity, (decide (a.id ≤ b.id) || decide (b.id ≤ a.id)) = true :=
    fun a b => by simpa using Int.le_total a.id b.id
  have hsorted := List.pairwise_mergeSort htrans htotal (s.id2channel.toList.map Prod.snd)
  refine List.Perm.eq_of_pairwise (fun a b ha hb hab hba => ?_) (hsorted.imp of_decide_eq_true)
    (h.2.imp le_of_lt) hperm
  exact List.inj_on_of_nodup_map hnodup (hperm.mem_iff.mp ha) hb (le_antisymm hab hba)

/-- A request in range is answered with all channels. -/
theorem listed_run (h : IsSorted s channels) (hrange : InRange s req) :
    listed (run s req).2 = objects channels := by
  obtain ⟨hoffset, hcount, hlimit⟩ := hrange
  have hno : ¬ (offset req < 0 ∨ offset req ≥ s.id2channel.size ∨ limit req ≤ 0) := by omega
  rw [offset, limit] at hno
  simp only [run]
  rw [if_neg hno, mergeSort_eq h]
  rfl

/-- A range of a list is the whole list just if it starts at its front and ends behind its end. -/
theorem objects_eq_page_iff {offset limit : ℕ} (h : offset < channels.length) :
    objects channels = objects ((channels.drop offset).take limit) ↔
      offset = 0 ∧ channels.length ≤ limit := by
  constructor
  · intro heq
    have hlength := congrArg List.length heq
    rw [objects, objects, List.length_map, List.length_map, List.length_take, List.length_drop] at hlength
    omega
  · rintro ⟨rfl, hle⟩
    rw [List.drop_zero, List.take_of_length_le hle]

/-- A list repeated for each page is the list itself just if there is one page. -/
theorem flatMap_objects_iff {size : ℕ} (hsize : 0 < size) (hne : channels ≠ []) :
    (List.range (Parts.count size channels.length)).flatMap (fun _ => objects channels) =
      objects channels ↔ channels.length ≤ size := by
  have hpos : 0 < channels.length := List.length_pos_iff.mpr hne
  constructor
  · intro heq
    have hlength := congrArg List.length heq
    rw [List.length_flatMap, List.map_const', List.sum_replicate_nat, objects, List.length_map, List.length_range]
      at hlength
    have hone : Parts.count size channels.length = 1 := Nat.eq_of_mul_eq_mul_right hpos (by omega)
    have hle : channels.length ≤ Parts.count size channels.length * size := Parts.length_le_count_mul hsize
    rwa [hone, one_mul] at hle
  · intro hle
    have hone : Parts.count size channels.length = 1 :=
      le_antisymm (Parts.count_le hsize (by rwa [one_mul])) (Parts.count_pos hsize hpos)
    rw [hone, List.range_one, List.flatMap_singleton]

/-- The channels of every reachable server can be sorted. However they are sorted, a request in range is
answered with the page that it asks for just if it asks for all channels, and the answers to the requests for
consecutive pages list the channels just if one page has all of them. -/
theorem listed_run_iff (s : VirtualServer) :
    (∀ fromUtf8 opts bans,
      Runs.Reachable (VirtualServer.step fromUtf8) (VirtualServer.init opts bans) s →
        ∃ channels, IsSorted s channels) ∧
    ∀ channels, IsSorted s channels → channels ≠ [] →
      (∀ req, InRange s req →
        (listed (run s req).2 =
            objects ((channels.drop (offset req).toNat).take (limit req).toNat) ↔
          offset req = 0 ∧ s.id2channel.size ≤ limit req)) ∧
      ∀ (size : ℕ) (reqs : ℕ → ActionData), 0 < size →
        (∀ k < Parts.count size channels.length, offset (reqs k) = k * size ∧ limit (reqs k) = size) →
        ((List.range (Parts.count size channels.length)).flatMap (fun k => listed (run s (reqs k)).2) =
          objects channels ↔ s.id2channel.size ≤ size) := by
  refine ⟨fun fromUtf8 opts bans hreach => exists_isSorted (VirtualServer.keyed_of_reachable hreach),
    fun channels h hne => ?_⟩
  have hlength : channels.length = s.id2channel.size := by
    rw [h.1.length_eq, List.length_map, ExtTreeMap.length_toList]
  constructor
  · intro req hrange
    obtain ⟨hoffset, hcount, hlimit⟩ := hrange
    rw [listed_run h ⟨hoffset, hcount, hlimit⟩, objects_eq_page_iff (by omega)]
    omega
  · intro size reqs hsize hreqs
    have hpages : ∀ k ∈ List.range (Parts.count size channels.length),
        listed (run s (reqs k)).2 = objects channels := by
      intro k hk
      have hlt : k * size < channels.length :=
        Parts.mul_lt_of_lt_count hsize (List.mem_range.mp hk)
      obtain ⟨hoffset, hlimit⟩ := hreqs k (List.mem_range.mp hk)
      refine listed_run h ⟨by omega, ?_, by omega⟩
      rw [hoffset, ← hlength]
      exact_mod_cast hlt
    rw [List.flatMap_congr hpages, flatMap_objects_iff hsize hne, hlength]

/-- A server with two channels. -/
def twoChannels : VirtualServer := (((VirtualServer.init {} ∅).createChannel "").1.createChannel "").1

/-- The channels of that server are sorted. -/
theorem isSorted_twoChannels : IsSorted twoChannels [{ id := 1 }, { id := 2 }] :=
  ⟨by decide +kernel, by decide +kernel⟩

/-- A request for two channels is answered with both, and one page of two channels lists them. -/
theorem listed_run_iff_twoChannels :
    listed (run twoChannels ⟨1, 7, NetworkClient.getChannelList 0 2⟩).2 =
        objects (([{ id := 1 }, { id := 2 }] : List ServerChannelEntity).take 2) ∧
      ([0].flatMap fun _ => listed (run twoChannels ⟨1, 7, NetworkClient.getChannelList 0 2⟩).2) =
        objects [{ id := 1 }, { id := 2 }] := by
  obtain ⟨hpage, hpages⟩ := (listed_run_iff twoChannels).2 _ isSorted_twoChannels (List.cons_ne_nil _ _)
  have hrange : InRange twoChannels ⟨1, 7, NetworkClient.getChannelList 0 2⟩ :=
    ⟨by decide +kernel, by decide +kernel, by decide +kernel⟩
  exact ⟨(hpage _ hrange).mpr ⟨by decide +kernel, by decide +kernel⟩,
    (hpages 2 (fun _ => ⟨1, 7, NetworkClient.getChannelList 0 2⟩) (by decide) (by decide +kernel)).mpr
      (by decide +kernel)⟩

/-- A request for one of two channels is answered with both. -/
theorem listed_run_wholeList :
    InRange twoChannels ⟨1, 7, NetworkClient.getChannelList 0 1⟩ ∧
      listed (run twoChannels ⟨1, 7, NetworkClient.getChannelList 0 1⟩).2 ≠
        objects (([{ id := 1 }, { id := 2 }] : List ServerChannelEntity).take 1) := by
  have hrange : InRange twoChannels ⟨1, 7, NetworkClient.getChannelList 0 1⟩ :=
    ⟨by decide +kernel, by decide +kernel, by decide +kernel⟩
  refine ⟨hrange, fun heq => ?_⟩
  rw [listed_run isSorted_twoChannels hrange] at heq
  exact absurd (congrArg List.length heq) (by decide)

end GetChannelListAction

end Ts3Video
