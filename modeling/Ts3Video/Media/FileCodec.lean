import Ts3Video.Library.ByteOrder
import Ts3Video.Media.FrameSplitting

/-!
# Datagrams in files

Datagrams can also be written to files and read from them. The fields are converted to network byte order
with the functions for 16 and 64 bits, also the sender, which has 32 bits. Of audio datagrams only the header
is written, and the size of authentications is read with a single byte.
-/

namespace Ts3Video

namespace Network

variable (order : ByteOrder)

/-- Convert a 16-bit number between the order of the host and that of the network. -/
def htons (x : UInt16) : UInt16 := UInt16.ofNat (order.hton 2 x.toNat)

/-- Convert a 16-bit number back. -/
def ntohs (x : UInt16) : UInt16 := UInt16.ofNat (order.hton 2 x.toNat)

/-- Convert a 32-bit number between the order of the host and that of the network. -/
def htonl (x : UInt32) : UInt32 := UInt32.ofNat (order.hton 4 x.toNat)

/-- Convert a 64-bit number, whose halves are swapped unless the host has the order of the network. -/
def htonll (x : UInt64) : UInt64 :=
  if 1 = htonl order 1 then x
  else (htonl order (x &&& 0xFFFFFFFF).toUInt32).toUInt64 <<< 32 |||
    (htonl order (x >>> 32).toUInt32).toUInt64

/-- Convert a 64-bit number back. -/
def ntohll (x : UInt64) : UInt64 :=
  if 1 = htonl order 1 then x
  else (htonl order (x &&& 0xFFFFFFFF).toUInt32).toUInt64 <<< 32 |||
    (htonl order (x >>> 32).toUInt32).toUInt64

end Network

namespace File

variable (order : ByteOrder) (memory : ℕ → UInt8)

/-- Read bytes from a file into memory. Bytes that the file lacks stay as they are in the memory. -/
def fread (width : ℕ) (file : List UInt8) : List UInt8 × List UInt8 :=
  (file.take width ++ ((List.range width).drop file.length).map memory, file.drop width)

/-- Read a number. -/
def readNumber (width : ℕ) (file : List UInt8) : ℕ × List UInt8 :=
  let bytes := fread memory width file
  (order.ofBytes bytes.1, bytes.2)

/-- Write an 8-bit number. -/
def writeUInt8 (value : UInt8) : List UInt8 := order.toBytes 1 value.toNat

/-- Write a 16-bit number. -/
def writeUInt16 (value : UInt16) : List UInt8 := order.toBytes 2 value.toNat

/-- Write a 32-bit number. -/
def writeInt32 (value : Int32) : List UInt8 := order.toBytes 4 value.toUInt32.toNat

/-- Write a 64-bit number. -/
def writeUInt64 (value : UInt64) : List UInt8 := order.toBytes 8 value.toNat

/-- Read an 8-bit number. -/
def readUInt8 (file : List UInt8) : UInt8 × List UInt8 :=
  (readNumber order memory 1 file).map UInt8.ofNat id

/-- Read a 16-bit number. -/
def readUInt16 (file : List UInt8) : UInt16 × List UInt8 :=
  (readNumber order memory 2 file).map UInt16.ofNat id

/-- Read a 32-bit number. -/
def readInt32 (file : List UInt8) : Int32 × List UInt8 :=
  (readNumber order memory 4 file).map (fun value => (UInt32.ofNat value).toInt32) id

/-- Read a 64-bit number. -/
def readUInt64 (file : List UInt8) : UInt64 × List UInt8 :=
  (readNumber order memory 8 file).map UInt64.ofNat id

end File

open Network

/-- What all datagrams begin with. -/
structure Datagram where
  magic : UInt8 := Datagram.MAGIC
  type : UInt8
deriving DecidableEq

/-- An authentication. -/
structure AuthDatagram where
  size : UInt16
  data : List UInt8
deriving DecidableEq

/-- A request for a part of a video frame. -/
structure VideoFrameRequestRecoveryDatagram where
  sender : Int32
  frameId : UInt64
  index : UInt16
deriving DecidableEq

section Codec

variable (order : ByteOrder) (memory : ℕ → UInt8)

/-- Write what all datagrams begin with. -/
def Datagram.write (base : Datagram) : List UInt8 :=
  File.writeUInt8 order base.magic ++ File.writeUInt8 order base.type

/-- Read what all datagrams begin with. -/
def Datagram.read (file : List UInt8) : Datagram × List UInt8 :=
  let magic := File.readUInt8 order memory file
  let type := File.readUInt8 order memory magic.2
  ({ magic := magic.1, type := type.1 }, type.2)

/-- Write an authentication. -/
def AuthDatagram.write (base : Datagram) (dg : AuthDatagram) : List UInt8 :=
  base.write order ++ (File.writeUInt16 order (htons order dg.size) ++ dg.data.take dg.size.toNat)

/-- Read an authentication. One byte of its size is read, and the data is read to where the null pointer of
the new datagram points, which has no result. -/
def AuthDatagram.read (file : List UInt8) : Option (Datagram × AuthDatagram) :=
  let base := Datagram.read order memory file
  let nsize := File.fread memory 1 base.2
  let size := ntohs order (UInt16.ofNat (order.ofBytes (nsize.1 ++ [memory 1])))
  if size = 0 ∨ nsize.2 = [] then some (base.1, { size, data := [] }) else none

/-- The sender as it is written: the function for 16 bits takes its lower half. -/
def networkSender (sender : Int32) : Int32 := (htons order sender.toUInt32.toUInt16).toUInt32.toInt32

/-- The sender as it is read. -/
def hostSender (nsender : Int32) : Int32 := (ntohs order nsender.toUInt32.toUInt16).toUInt32.toInt32

/-- Write a part of a video frame. -/
def VideoFrameDatagram.write (base : Datagram) (dg : VideoFrameDatagram) : List UInt8 :=
  base.write order ++ (File.writeUInt8 order dg.flags ++
    (File.writeInt32 order (networkSender order dg.sender) ++
    (File.writeUInt64 order (htonll order dg.frameId) ++ (File.writeUInt16 order (htons order dg.index) ++
    (File.writeUInt16 order (htons order dg.count) ++ (File.writeUInt16 order (htons order dg.size) ++
    dg.data.take dg.size.toNat))))))

/-- Read a part of a video frame into a new datagram. -/
def VideoFrameDatagram.read (file : List UInt8) : Datagram × VideoFrameDatagram :=
  let base := Datagram.read order memory file
  let flags := File.readUInt8 order memory base.2
  let nsender := File.readInt32 order memory flags.2
  let nframeId := File.readUInt64 order memory nsender.2
  let nindex := File.readUInt16 order memory nframeId.2
  let ncount := File.readUInt16 order memory nindex.2
  let nsize := File.readUInt16 order memory ncount.2
  let size := ntohs order nsize.1
  (base.1,
    { flags := flags.1, sender := hostSender order nsender.1, frameId := ntohll order nframeId.1,
      index := ntohs order nindex.1, count := ntohs order ncount.1, size,
      data := (File.fread memory size.toNat nsize.2).1 })

/-- Write a request for a part of a video frame. -/
def VideoFrameRequestRecoveryDatagram.write (base : Datagram) (dg : VideoFrameRequestRecoveryDatagram) :
    List UInt8 :=
  base.write order ++ (File.writeInt32 order (networkSender order dg.sender) ++
    (File.writeUInt64 order (htonll order dg.frameId) ++ File.writeUInt16 order (htons order dg.index)))

/-- Read a request for a part of a video frame into a new datagram. -/
def VideoFrameRequestRecoveryDatagram.read (file : List UInt8) :
    Datagram × VideoFrameRequestRecoveryDatagram :=
  let base := Datagram.read order memory file
  let nsender := File.readInt32 order memory base.2
  let nframeId := File.readUInt64 order memory nsender.2
  let nindex := File.readUInt16 order memory nframeId.2
  (base.1,
    { sender := hostSender order nsender.1, frameId := ntohll order nframeId.1,
      index := ntohs order nindex.1 })

/-- Write a part of an audio frame: nothing but its beginning. -/
def AudioFrameDatagram.write (base : Datagram) (_ : AudioFrameDatagram) : List UInt8 := base.write order

/-- Read a part of an audio frame into a new datagram, whose fields the constructor leaves as they are in
the memory. -/
def AudioFrameDatagram.read (uninitialised : AudioFrameDatagram) (file : List UInt8) :
    Datagram × AudioFrameDatagram :=
  ((Datagram.read order memory file).1, uninitialised)

/-- The bytes that the media socket streams for a part of a video frame. -/
def VideoFrameDatagram.stream (base : Datagram) (dg : VideoFrameDatagram) : List UInt8 :=
  writeUInt8 base.magic ++ (writeUInt8 base.type ++ (writeUInt8 dg.flags ++ (writeInt32 dg.sender ++
    (writeUInt64 dg.frameId ++ (writeUInt16 dg.index ++ (writeUInt16 dg.count ++ (writeUInt16 dg.size ++
      dg.data.take dg.size.toNat)))))))

/-- The bytes that the media socket streams for a request for a part of a video frame. -/
def VideoFrameRequestRecoveryDatagram.stream (base : Datagram) (dg : VideoFrameRequestRecoveryDatagram) :
    List UInt8 :=
  writeUInt8 base.magic ++ writeUInt8 base.type ++ writeInt32 dg.sender ++ writeUInt64 dg.frameId ++
    writeUInt16 dg.index

end Codec

/-- The media socket sends the parts of a frame as streamed. -/
theorem VideoFrameDatagram.toBytes_eq_stream (dg : VideoFrameDatagram) :
    dg.toBytes = dg.stream { type := VideoFrameDatagram.TYPE } := rfl

/-- The media socket sends a request as streamed. -/
theorem MediaSocket.sendVideoFrameRecoveryDatagram_eq_stream {frameId : UInt64} {sender : Int32}
    (hframe : frameId ≠ 0) (hsender : sender ≠ 0) :
    MediaSocket.sendVideoFrameRecoveryDatagram frameId sender =
      [.writeDatagram (VideoFrameRequestRecoveryDatagram.stream
        { type := VideoFrameRequestRecoveryDatagram.TYPE } { sender, frameId, index := 0 })] := by
  rw [sendVideoFrameRecoveryDatagram, if_neg (not_or.mpr ⟨hframe, hsender⟩)]
  rfl

namespace Network

variable (order : ByteOrder)

/-- The converted 16-bit number. -/
theorem toNat_htons (x : UInt16) : (htons order x).toNat = order.hton 2 x.toNat := by
  rw [htons, UInt16.toNat_ofNat']
  exact Nat.mod_eq_of_lt (order.hton_lt 2 x.toNat)

/-- Converting a 16-bit number back gives it back. -/
@[simp] theorem ntohs_htons (x : UInt16) : ntohs order (htons order x) = x := by
  rw [← UInt16.toNat_inj]
  change (htons order (htons order x)).toNat = x.toNat
  rw [toNat_htons, toNat_htons, order.hton_hton]
  exact Nat.mod_eq_of_lt x.toNat_lt

/-- The converted 32-bit number. -/
theorem toNat_htonl (x : UInt32) : (htonl order x).toNat = order.hton 4 x.toNat := by
  rw [htonl, UInt32.toNat_ofNat']
  exact Nat.mod_eq_of_lt (order.hton_lt 4 x.toNat)

/-- The converted 64-bit number: its halves are converted and swapped. -/
theorem toNat_htonll (x : UInt64) : (htonll order x).toNat = order.hton 8 x.toNat := by
  cases order with
  | bigEndian =>
    have hhost : 1 = htonl .bigEndian 1 := by decide
    have hlt : x.toNat < 256 ^ 8 := x.toNat_lt
    have hread := BigEndian.ofBytes_toBytes 8 x.toNat
    rw [Nat.mod_eq_of_lt hlt] at hread
    rw [htonll, if_pos hhost]
    exact hread.symm
  | littleEndian =>
    have hhost : ¬ 1 = htonl .littleEndian 1 := by decide
    have hlow : (x &&& 0xFFFFFFFF).toUInt32.toNat = x.toNat % 256 ^ 4 := by
      rw [UInt64.toNat_toUInt32, UInt64.toNat_and]
      change (x.toNat &&& (2 ^ 32 - 1)) % 2 ^ 32 = x.toNat % 2 ^ 32
      rw [Nat.and_two_pow_sub_one_eq_mod, Nat.mod_mod]
    have hhigh : (x >>> 32).toUInt32.toNat = x.toNat / 256 ^ 4 := by
      have hlt := x.toNat_lt
      rw [UInt64.toNat_toUInt32, UInt64.toNat_shiftRight, Nat.shiftRight_eq_div_pow]
      change x.toNat / 2 ^ 32 % 2 ^ 32 = x.toNat / 2 ^ 32
      omega
    have hswap : ∀ a b : UInt32,
        (a.toUInt64 <<< 32 ||| b.toUInt64).toNat = a.toNat * 256 ^ 4 + b.toNat := by
      intro a b
      have ha := a.toNat_lt
      rw [UInt64.toNat_or, UInt64.toNat_shiftLeft, UInt32.toNat_toUInt64, UInt32.toNat_toUInt64]
      change a.toNat <<< 32 % 2 ^ 64 ||| b.toNat = a.toNat * 2 ^ 32 + b.toNat
      rw [Nat.shiftLeft_eq, Nat.mod_eq_of_lt (by omega), Nat.mul_comm,
        Nat.two_pow_add_eq_or_of_lt b.toNat_lt]
    rw [htonll, if_neg hhost, hswap, toNat_htonl, toNat_htonl, hlow, hhigh, ByteOrder.hton_mod]
    exact (ByteOrder.littleEndian_hton_append 4 4 x.toNat).symm

/-- Converting a 64-bit number back gives it back. -/
@[simp] theorem ntohll_htonll (x : UInt64) : ntohll order (htonll order x) = x := by
  rw [← UInt64.toNat_inj]
  change (htonll order (htonll order x)).toNat = x.toNat
  rw [toNat_htonll, toNat_htonll, order.hton_hton]
  exact Nat.mod_eq_of_lt x.toNat_lt

end Network

namespace File

variable (order : ByteOrder) (memory : ℕ → UInt8)

/-- Bytes at the start of a file are read completely. -/
@[simp] theorem fread_append {width : ℕ} {bytes : List UInt8} (h : bytes.length = width)
    (rest : List UInt8) : fread memory width (bytes ++ rest) = (bytes, rest) := by
  have hdrop : (List.range width).drop (bytes ++ rest).length = [] := by
    rw [List.drop_eq_nil_iff, List.length_range, List.length_append]
    omega
  rw [fread, hdrop, ← h, List.take_left, List.drop_left, List.map_nil, List.append_nil]

/-- A stored number is read back. -/
theorem readNumber_append {width value : ℕ} (h : value < 256 ^ width) (rest : List UInt8) :
    readNumber order memory width (order.toBytes width value ++ rest) = (value, rest) := by
  rw [readNumber, fread_append memory (order.toBytes_length width value)]
  dsimp only
  rw [order.ofBytes_toBytes, Nat.mod_eq_of_lt h]

/-- A written 8-bit number is read back. -/
@[simp] theorem readUInt8_append (value : UInt8) (rest : List UInt8) :
    readUInt8 order memory (writeUInt8 order value ++ rest) = (value, rest) := by
  have hlt : value.toNat < 256 ^ 1 := value.toNat_lt
  rw [readUInt8, writeUInt8, readNumber_append order memory hlt, Prod.map_apply, UInt8.ofNat_toNat, id]

/-- A written 16-bit number is read back. -/
@[simp] theorem readUInt16_append (value : UInt16) (rest : List UInt8) :
    readUInt16 order memory (writeUInt16 order value ++ rest) = (value, rest) := by
  have hlt : value.toNat < 256 ^ 2 := value.toNat_lt
  rw [readUInt16, writeUInt16, readNumber_append order memory hlt, Prod.map_apply, UInt16.ofNat_toNat, id]

/-- A written 32-bit number is read back. -/
@[simp] theorem readInt32_append (value : Int32) (rest : List UInt8) :
    readInt32 order memory (writeInt32 order value ++ rest) = (value, rest) := by
  have hlt : value.toUInt32.toNat < 256 ^ 4 := value.toUInt32.toNat_lt
  rw [readInt32, writeInt32, readNumber_append order memory hlt, Prod.map_apply, UInt32.ofNat_toNat, id,
    Int32.toInt32_toUInt32]

/-- A written 64-bit number is read back. -/
@[simp] theorem readUInt64_append (value : UInt64) (rest : List UInt8) :
    readUInt64 order memory (writeUInt64 order value ++ rest) = (value, rest) := by
  have hlt : value.toNat < 256 ^ 8 := value.toNat_lt
  rw [readUInt64, writeUInt64, readNumber_append order memory hlt, Prod.map_apply, UInt64.ofNat_toNat, id]

/-- A converted 16-bit number is written as it is streamed. -/
theorem writeUInt16_htons (value : UInt16) :
    writeUInt16 order (htons order value) = Ts3Video.writeUInt16 value := by
  rw [writeUInt16, toNat_htons, order.toBytes_hton]
  rfl

/-- A converted 64-bit number is written as it is streamed. -/
theorem writeUInt64_htonll (value : UInt64) :
    writeUInt64 order (htonll order value) = Ts3Video.writeUInt64 value := by
  rw [writeUInt64, toNat_htonll, order.toBytes_hton]
  rfl

/-- An 8-bit number is written as it is streamed. -/
theorem writeUInt8_eq (value : UInt8) : writeUInt8 order value = Ts3Video.writeUInt8 value := by
  cases order <;> rfl

end File

section Codec

variable (order : ByteOrder) (memory : ℕ → UInt8)

/-- What all datagrams begin with is read back. -/
@[simp] theorem Datagram.read_append (base : Datagram) (rest : List UInt8) :
    Datagram.read order memory (base.write order ++ rest) = (base, rest) := by
  simp only [Datagram.read, Datagram.write, List.append_assoc, File.readUInt8_append]

/-- The lower half of the sender is read back. -/
theorem hostSender_networkSender (sender : Int32) :
    hostSender order (networkSender order sender) = sender.toUInt32.toUInt16.toUInt32.toInt32 := by
  rw [hostSender, networkSender, UInt32.toUInt32_toInt32, UInt16.toUInt16_toUInt32, ntohs_htons]

/-- A signed number is determined by its bits. -/
theorem toUInt32_injective : Function.Injective Int32.toUInt32 := by
  intro first second h
  rw [← Int32.toInt32_toUInt32 first, h, Int32.toInt32_toUInt32]

/-- The lower half of a sender is the sender if the upper half is zero. -/
theorem lowerHalf_eq_iff (sender : Int32) :
    sender.toUInt32.toUInt16.toUInt32.toInt32 = sender ↔ sender.toUInt32.toNat < 65536 := by
  rw [← toUInt32_injective.eq_iff, UInt32.toUInt32_toInt32, ← UInt32.toNat_inj, UInt16.toNat_toUInt32,
    UInt32.toNat_toUInt16]
  omega

/-- A written part of a video frame is read back, but for its sender. -/
theorem VideoFrameDatagram.read_write (base : Datagram) {dg : VideoFrameDatagram}
    (h : dg.data.length = dg.size.toNat) :
    VideoFrameDatagram.read order memory (dg.write order base) =
      (base, { dg with sender := hostSender order (networkSender order dg.sender) }) := by
  have hdata : File.fread memory dg.size.toNat dg.data = (dg.data, []) := by
    have hfread := File.fread_append memory h []
    rwa [List.append_nil] at hfread
  have htake : dg.data.take dg.size.toNat = dg.data := by rw [← h, List.take_length]
  simp only [VideoFrameDatagram.read, VideoFrameDatagram.write, Datagram.read_append,
    File.readUInt8_append, File.readInt32_append, File.readUInt64_append, File.readUInt16_append,
    ntohs_htons, ntohll_htonll, htake, hdata]

/-- A written request is read back, but for its sender. -/
theorem VideoFrameRequestRecoveryDatagram.read_write (base : Datagram)
    (dg : VideoFrameRequestRecoveryDatagram) :
    VideoFrameRequestRecoveryDatagram.read order memory (dg.write order base) =
      (base, { dg with sender := hostSender order (networkSender order dg.sender) }) := by
  have hindex : File.readUInt16 order memory (File.writeUInt16 order (htons order dg.index)) =
      (htons order dg.index, []) := by
    have hread := File.readUInt16_append order memory (htons order dg.index) []
    rwa [List.append_nil] at hread
  simp only [VideoFrameRequestRecoveryDatagram.read, VideoFrameRequestRecoveryDatagram.write,
    Datagram.read_append, File.readInt32_append, File.readUInt64_append, hindex, ntohs_htons,
    ntohll_htonll]

/-- The sender fits the format: the function for 16 bits keeps the bytes of all 32 bits. -/
def SenderFits (sender : Int32) : Prop :=
  match order with
  | .littleEndian => sender = 0
  | .bigEndian => sender.toUInt32.toNat < 65536

/-- The stored bytes of a sender: those of its lower half are next to zero bytes. -/
theorem writeInt32_networkSender (sender : Int32) :
    File.writeInt32 order (networkSender order sender) =
      match order with
      | .littleEndian => BigEndian.toBytes 2 sender.toUInt32.toUInt16.toNat ++ [0, 0]
      | .bigEndian => [0, 0] ++ BigEndian.toBytes 2 sender.toUInt32.toUInt16.toNat := by
  rw [File.writeInt32, networkSender, UInt32.toUInt32_toInt32, UInt16.toNat_toUInt32, toNat_htons,
    order.toBytes_of_lt 2 (order.hton_lt 2 _)]
  cases order with
  | littleEndian => rw [ByteOrder.toBytes_hton]; rfl
  | bigEndian => rw [ByteOrder.toBytes_hton]; rfl

/-- The sender is written as it is streamed exactly when it fits. -/
theorem writeInt32_networkSender_iff (sender : Int32) :
    File.writeInt32 order (networkSender order sender) = writeInt32 sender ↔ SenderFits order sender := by
  have hhalf : sender.toUInt32.toUInt16.toNat = sender.toUInt32.toNat % 65536 := UInt32.toNat_toUInt16 _
  have hlt : sender.toUInt32.toNat < 256 ^ 4 := sender.toUInt32.toNat_lt
  have hstream : BigEndian.ofBytes (writeInt32 sender) = sender.toUInt32.toNat :=
    (BigEndian.ofBytes_toBytes 4 _).trans (Nat.mod_eq_of_lt hlt)
  rw [writeInt32_networkSender]
  cases order with
  | littleEndian =>
    constructor
    · intro h
      have hread := congrArg BigEndian.ofBytes h
      rw [BigEndian.ofBytes_append, BigEndian.ofBytes_toBytes, hstream, hhalf] at hread
      change sender.toUInt32.toNat % 65536 % 65536 * 65536 + 0 = _ at hread
      have hzero : sender.toUInt32.toNat = 0 := by omega
      rw [SenderFits, ← toUInt32_injective.eq_iff, ← UInt32.toNat_inj, hzero]
      rfl
    · rintro rfl
      decide
  | bigEndian =>
    constructor
    · intro h
      have hread := congrArg BigEndian.ofBytes h
      rw [BigEndian.ofBytes_append, BigEndian.ofBytes_toBytes, hstream, hhalf] at hread
      change 0 * _ + sender.toUInt32.toNat % 65536 % 65536 = _ at hread
      rw [SenderFits]
      omega
    · intro h
      rw [SenderFits] at h
      rw [hhalf, Nat.mod_eq_of_lt h]
      have hdiv : sender.toUInt32.toNat / 256 ^ 2 = 0 := Nat.div_eq_of_lt h
      change [0, 0] ++ _ = BigEndian.toBytes (2 + 2) _
      rw [BigEndian.toBytes_append, hdiv]
      rfl

/-- Datagrams of the four kinds. -/
inductive AnyDatagram where
  | auth (dg : AuthDatagram)
  | video (dg : VideoFrameDatagram)
  | recovery (dg : VideoFrameRequestRecoveryDatagram)
  | audio (dg : AudioFrameDatagram)

/-- The data has the length of the size field. -/
def AnyDatagram.IsSized : AnyDatagram → Prop
  | .auth dg => dg.data.length = dg.size.toNat
  | .video dg => dg.data.length = dg.size.toNat
  | .recovery _ => True
  | .audio dg => dg.data.length = dg.size.toNat

/-- What is written is read back into a new datagram, whatever the memory of this one held. -/
def AnyDatagram.RoundTrips (base : Datagram) : AnyDatagram → Prop
  | .auth dg => ∀ memory, AuthDatagram.read order memory (dg.write order base) = some (base, dg)
  | .video dg => ∀ memory, VideoFrameDatagram.read order memory (dg.write order base) = (base, dg)
  | .recovery dg => ∀ memory,
      VideoFrameRequestRecoveryDatagram.read order memory (dg.write order base) = (base, dg)
  | .audio dg => ∀ memory uninitialised,
      AudioFrameDatagram.read order memory uninitialised (dg.write order base) = (base, dg)

/-- What is written are the bytes that the media socket streams. -/
def AnyDatagram.AgreesWithStream (base : Datagram) : AnyDatagram → Prop
  | .auth _ => True
  | .video dg => dg.write order base = dg.stream base
  | .recovery dg => dg.write order base = dg.stream base
  | .audio _ => True

/-- A video datagram or request whose sender fits. -/
def AnyDatagram.Fits : AnyDatagram → Prop
  | .auth _ => False
  | .video dg => SenderFits order dg.sender
  | .recovery dg => SenderFits order dg.sender
  | .audio _ => False

/-- A fitting sender has a zero upper half. -/
theorem SenderFits.lt {order : ByteOrder} {sender : Int32} (h : SenderFits order sender) :
    sender.toUInt32.toNat < 65536 := by
  cases order with
  | littleEndian =>
    rw [show sender = 0 from h]
    decide
  | bigEndian => exact h

/-- A fitting sender is read back. -/
theorem SenderFits.hostSender_networkSender {order : ByteOrder} {sender : Int32}
    (h : SenderFits order sender) : hostSender order (networkSender order sender) = sender := by
  rw [Ts3Video.hostSender_networkSender]
  exact (lowerHalf_eq_iff sender).mpr h.lt

/-- The part of a video frame is written as it is streamed exactly when its sender is. -/
theorem VideoFrameDatagram.write_eq_stream_iff (base : Datagram) (dg : VideoFrameDatagram) :
    dg.write order base = dg.stream base ↔ SenderFits order dg.sender := by
  rw [← writeInt32_networkSender_iff, VideoFrameDatagram.write, VideoFrameDatagram.stream, Datagram.write]
  simp only [File.writeUInt8_eq, File.writeUInt16_htons, File.writeUInt64_htonll, List.append_assoc,
    List.append_cancel_left_eq, List.append_cancel_right_eq]

/-- The request is written as it is streamed exactly when its sender is. -/
theorem VideoFrameRequestRecoveryDatagram.write_eq_stream_iff (base : Datagram)
    (dg : VideoFrameRequestRecoveryDatagram) :
    dg.write order base = dg.stream base ↔ SenderFits order dg.sender := by
  rw [← writeInt32_networkSender_iff, VideoFrameRequestRecoveryDatagram.write,
    VideoFrameRequestRecoveryDatagram.stream, Datagram.write]
  simp only [File.writeUInt8_eq, File.writeUInt16_htons, File.writeUInt64_htonll, List.append_assoc,
    List.append_cancel_left_eq, List.append_cancel_right_eq]

/-- The size that is read has one byte of the file. -/
theorem AuthDatagram.size_of_read {file : List UInt8} {base : Datagram} {dg : AuthDatagram}
    (h : AuthDatagram.read order memory file = some (base, dg)) :
    dg.size = ntohs order (UInt16.ofNat (order.ofBytes
      ((File.fread memory 1 (Datagram.read order memory file).2).1 ++ [memory 1]))) := by
  unfold AuthDatagram.read at h
  dsimp only at h
  split at h
  · rw [Option.some_inj, Prod.mk.injEq] at h
    rw [← h.2]
  · contradiction

/-- An authentication is not read back: the other byte of its size is whatever the memory held. -/
theorem AuthDatagram.not_roundTrips (base : Datagram) (dg : AuthDatagram) :
    ¬ ∀ memory, AuthDatagram.read order memory (dg.write order base) = some (base, dg) := by
  intro h
  obtain ⟨first, second, hbytes⟩ : ∃ first second, File.writeUInt16 order (htons order dg.size) =
      [first, second] := List.length_eq_two.mp (order.toBytes_length 2 _)
  have hsize : ∀ other : UInt8, dg.size = ntohs order (UInt16.ofNat (order.ofBytes [first, other])) := by
    intro other
    have hread := AuthDatagram.size_of_read order (fun _ => other) (h fun _ => other)
    rwa [AuthDatagram.write, hbytes, Datagram.read_append, List.cons_append,
      ← List.singleton_append, File.fread_append _ (List.length_singleton)] at hread
  have hstored : ∀ other : UInt8, order.toBytes 2 (htons order dg.size).toNat = [first, other] := by
    intro other
    have hlt : order.ofBytes [first, other] < 2 ^ 16 := by simpa using order.ofBytes_lt [first, other]
    have hback : htons order dg.size = UInt16.ofNat (order.ofBytes [first, other]) := by
      rw [hsize other]
      exact ntohs_htons order _
    rw [hback, UInt16.toNat_ofNat', Nat.mod_eq_of_lt hlt]
    exact order.toBytes_ofBytes [first, other]
  have hsame := (hstored 0).symm.trans (hstored 1)
  exact absurd (List.cons.inj (List.cons.inj hsame).2).1 (by decide)

/-- An audio datagram is not read back: its fields are whatever the memory held. -/
theorem AudioFrameDatagram.not_roundTrips (base : Datagram) (dg : AudioFrameDatagram) :
    ¬ ∀ memory uninitialised,
      AudioFrameDatagram.read order memory uninitialised (dg.write order base) = (base, dg) := by
  intro h
  have hsender : ∀ sender : Int32, sender = dg.sender := fun sender =>
    congrArg (fun read => read.2.sender) (h (fun _ => 0) { dg with sender })
  exact absurd ((hsender 0).trans (hsender 1).symm) (by decide)

/-- The codec for files works exactly for video datagrams and requests with a fitting sender. -/
theorem fileCodec_iff (base : Datagram) {dg : AnyDatagram} (hsize : dg.IsSized) :
    dg.RoundTrips order base ∧ dg.AgreesWithStream order base ↔ dg.Fits order := by
  cases dg with
  | auth dg => exact iff_of_false (fun h => dg.not_roundTrips order base h.1) id
  | audio dg => exact iff_of_false (fun h => dg.not_roundTrips order base h.1) id
  | video dg =>
    constructor
    · rintro ⟨-, h⟩
      exact (dg.write_eq_stream_iff order base).mp h
    · intro h
      refine ⟨fun memory => ?_, (dg.write_eq_stream_iff order base).mpr h⟩
      rw [VideoFrameDatagram.read_write order memory base hsize, SenderFits.hostSender_networkSender h]
  | recovery dg =>
    constructor
    · rintro ⟨-, h⟩
      exact (dg.write_eq_stream_iff order base).mp h
    · intro h
      refine ⟨fun memory => ?_, (dg.write_eq_stream_iff order base).mpr h⟩
      rw [VideoFrameRequestRecoveryDatagram.read_write order memory base,
        SenderFits.hostSender_networkSender h]

end Codec

/-- A frame with two bytes from the given sender. -/
def twoBytesFrom (sender : Int32) : VideoFrameDatagram := ⟨0, sender, 1, 0, 1, 2, [10, 20]⟩

/-- A part of a video frame without a sender. -/
theorem fileCodec_iff_noSender :
    (AnyDatagram.video (twoBytesFrom 0)).RoundTrips .littleEndian { type := 0x02 } ∧
        (AnyDatagram.video (twoBytesFrom 0)).AgreesWithStream .littleEndian { type := 0x02 } ↔
      (AnyDatagram.video (twoBytesFrom 0)).Fits .littleEndian :=
  fileCodec_iff .littleEndian { type := 0x02 } (show (AnyDatagram.video (twoBytesFrom 0)).IsSized from rfl)

/-- The sender 65536 is read back as zero. -/
theorem fileCodec_largeSender :
    (VideoFrameDatagram.read .littleEndian (fun _ => 0)
        ((twoBytesFrom 65536).write .littleEndian { type := 0x02 })).2.sender = 0 ∧
      ¬ ((AnyDatagram.video (twoBytesFrom 65536)).RoundTrips .littleEndian { type := 0x02 } ∧
        (AnyDatagram.video (twoBytesFrom 65536)).AgreesWithStream .littleEndian { type := 0x02 }) := by
  have hzero : (VideoFrameDatagram.read .littleEndian (fun _ => 0)
      ((twoBytesFrom 65536).write .littleEndian { type := 0x02 })).2.sender = 0 := by decide +kernel
  refine ⟨hzero, fun h => ?_⟩
  have hsender := congrArg (fun read => read.2.sender) (h.1 fun _ => 0)
  rw [hzero] at hsender
  exact absurd hsender (by decide)

end Ts3Video
