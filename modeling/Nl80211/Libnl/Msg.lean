/-
# Nl80211.Libnl.Msg — netlink message headers and the generic netlink header behind them.

The members of `struct nlmsghdr`, the two functions that walk a datagram (`nlmsg_ok`, `nlmsg_next`)
and the accessors of `genl.c` by which the handlers find the attributes of a message.  A message is
the memory from its header on; how much of that memory belongs to it is what `nlmsg_len` says.
-/
import Nl80211.Libnl.Attr

namespace Nl80211.Libnl

open Lib Lib.Bytes

/-! ## `struct nlmsghdr` -/

/-- `NLMSG_HDRLEN`. -/
def nlmsgHdrlen : Nat := 16

def nlmsgLenField (mem : Mem) (nlh : Nat) : Nat := rd32 mem nlh
def nlmsgType (mem : Mem) (nlh : Nat) : Nat := rd16 mem (nlh + 4)
def nlmsgFlags (mem : Mem) (nlh : Nat) : Nat := rd16 mem (nlh + 6)
def nlmsgSeq (mem : Mem) (nlh : Nat) : UInt32 := UInt32.ofNat (rd32 mem (nlh + 8))

/-- `nlmsg_data`. -/
def nlmsgData (nlh : Nat) : Nat := nlh + nlmsgHdrlen

/-- `NLMSG_NOOP`. -/
def nlmsgNoop : Nat := 1
/-- `NLMSG_ERROR`. -/
def nlmsgError : Nat := 2
/-- `NLMSG_DONE`. -/
def nlmsgDone : Nat := 3
/-- `NLMSG_OVERRUN`. -/
def nlmsgOverrun : Nat := 4

/-- `NLM_F_REQUEST`. -/
def nlmFRequest : Nat := 1
/-- `NLM_F_MULTI`. -/
def nlmFMulti : Nat := 2
/-- `NLM_F_ACK`. -/
def nlmFAck : Nat := 4
/-- `NLM_F_DUMP`. -/
def nlmFDump : Nat := 0x300

/-! ## Walking a datagram -/

/-- `nlmsg_ok`. -/
def nlmsgOk (mem : Mem) (nlh : Nat) (remaining : Int) : Bool :=
  let r := sizeT remaining
  r ≥ nlmsgHdrlen && nlmsgLenField mem nlh ≥ nlmsgHdrlen && nlmsgLenField mem nlh ≤ r

/-- `nlmsg_next`. -/
def nlmsgNext (mem : Mem) (nlh : Nat) (remaining : Int) : Nat × Int :=
  let totlen := align4 (nlmsgLenField mem nlh)
  (nlh + totlen, remaining - totlen)

/-- An accepted message starts inside memory, and the next one lies further on. -/
theorem lt_of_nlmsgOk {mem : Mem} {nlh : Nat} {rem : Int} (h : nlmsgOk mem nlh rem = true) :
    nlh < mem.length ∧ nlh < (nlmsgNext mem nlh rem).1 := by
  simp only [nlmsgOk, nlmsgHdrlen, ge_iff_le, Bool.and_eq_true, decide_eq_true_eq] at h
  constructor
  · by_contra hout
    rw [nlmsgLenField, rd32, rd16_of_length_le (by omega), rd16_of_length_le (by omega)] at h
    omega
  · have := le_align4 (nlmsgLenField mem nlh)
    simp only [nlmsgNext]
    omega

/-! ## The attributes behind a header -/

/-- `nlmsg_valid_hdr`. -/
def nlmsgValidHdr (mem : Mem) (hdrlen : Nat) : Bool := ¬ nlmsgLenField mem 0 < nlmsgHdrlen + hdrlen

/-- `nlmsg_attrdata`. -/
def nlmsgAttrdata (nlh hdrlen : Nat) : Nat := nlmsgData nlh + align4 hdrlen

/-- `nlmsg_attrlen`; `nlmsg_len` is computed without a sign and returned as an `int`. -/
def nlmsgAttrlen (mem : Mem) (nlh hdrlen : Nat) : Int :=
  toInt32 (nlmsgLenField mem nlh + 4294967296 - nlmsgHdrlen) - align4 hdrlen

/-- `NLE_MSG_TOOSHORT`. -/
def nleMsgTooshort : Int := 21

/-- `nlmsg_parse`. -/
def nlmsgParse (mem : Mem) (hdrlen maxtype : Nat) (policy : Option (Nat → NlaPolicy)) : NlaIndex :=
  if ¬ nlmsgValidHdr mem hdrlen then ⟨-nleMsgTooshort, fun _ => none⟩
  else (nlaParse mem maxtype (nlmsgAttrdata 0 hdrlen) (nlmsgAttrlen mem 0 hdrlen) policy).val

/-! ## `struct genlmsghdr` -/

/-- `GENL_HDRLEN`. -/
def genlHdrlen : Nat := 4

/-- `genlmsg_data`. -/
def genlmsgData (gnlh : Nat) : Nat := gnlh + genlHdrlen

/-- `genlmsg_len`: the member `nlmsg_len` of the header in front, less both headers, as an `int`. -/
def genlmsgLen (mem : Mem) (gnlh : Nat) : Int :=
  toInt32 (nlmsgLenField mem (gnlh - nlmsgHdrlen) + 4294967296 - genlHdrlen - nlmsgHdrlen)

/-- `genlmsg_attrdata`. -/
def genlmsgAttrdata (gnlh hdrlen : Nat) : Nat := genlmsgData gnlh + align4 hdrlen

/-- `genlmsg_attrlen`. -/
def genlmsgAttrlen (mem : Mem) (gnlh hdrlen : Nat) : Int := genlmsgLen mem gnlh - align4 hdrlen

/-- For a message shorter than 2 GiB the attribute length is what remains behind the two headers; it
is negative when the message ends before them. -/
theorem genlmsgAttrlen_eq {mem : Mem} (h16 : nlmsgHdrlen ≤ nlmsgLenField mem 0)
    (hlt : nlmsgLenField mem 0 < 2147483648) :
    genlmsgAttrlen mem (nlmsgData 0) 0 = (nlmsgLenField mem 0 : Int) - 20 := by
  have h0 : nlmsgData 0 - nlmsgHdrlen = 0 := rfl
  simp only [genlmsgAttrlen, genlmsgLen, h0]
  generalize nlmsgLenField mem 0 = n at h16 hlt ⊢
  simp only [nlmsgHdrlen] at h16
  by_cases h20 : 20 ≤ n
  · rw [toInt32, nlmsgHdrlen, genlHdrlen, if_pos (by omega)]
    simp only [align4]
    omega
  · rw [toInt32, nlmsgHdrlen, genlHdrlen, if_neg (by omega)]
    simp only [align4]
    omega

end Nl80211.Libnl
