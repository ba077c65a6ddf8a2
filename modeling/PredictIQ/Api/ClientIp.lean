/-
  PredictIQ.Api.ClientIp: the two client-IP extractors, `client_ip.rs` and
  `extract_client_ip_cidrs` of `security.rs`.

  Both trust the headers of a peer that is in a network of the list, and both
  fall back to `X-Real-IP` and then to the peer.  Of `X-Forwarded-For` the one
  looks at the first entry alone, the other passes over entries that are no
  address.  The one is handed texts, the other reads the headers itself, and
  those that are not visible ASCII not at all.  `extractors_agree_iff` says
  when that is the same.

  How addresses are written and read is a parameter, `AddrText`.
-/
import PredictIQ.Foundation.Text
import PredictIQ.Idempotency.Middleware

namespace PredictIQ.ClientIp

open Foundation
open Email (trim)
open Idempotency (HeaderValue Network isVisible toStr toStr_utf8)

/-! ## §1. Addresses and networks. -/

inductive IpAddr where
  | v4 (bits : BitVec 32)
  | v6 (bits : BitVec 128)
  deriving DecidableEq

/-- The number of bits of its family. -/
def IpAddr.width : IpAddr → Nat
  | .v4 _ => 32
  | .v6 _ => 128

/-- `IpAddr::from_str` and its `Display`. -/
structure AddrText where
  parse : String → Option IpAddr
  toString : IpAddr → String
  parse_toString : ∀ ip, parse (toString ip) = some ip
  parse_empty : parse "" = none
  /-- An address is written in hexadecimal digits, dots and colons. -/
  toString_plain : ∀ ip, '|' ∉ (toString ip).toList

/-- A network: an address and how many of its first bits count. -/
structure IpNet where
  addr : IpAddr
  prefixLen : Nat
  prefixLen_le : prefixLen ≤ addr.width

/-- An address of the same family with the same first bits. -/
def IpNet.contains (net : IpNet) (ip : IpAddr) : Bool :=
  match net.addr, ip with
  | .v4 net4, .v4 ip4 => net4 >>> (32 - net.prefixLen) == ip4 >>> (32 - net.prefixLen)
  | .v6 net6, .v6 ip6 => net6 >>> (128 - net.prefixLen) == ip6 >>> (128 - net.prefixLen)
  | _, _ => false

/-- The network of these addresses. -/
@[reducible] def ipNetwork (T : AddrText) : Network := ⟨IpAddr, IpNet, T.parse, T.toString, IpNet.contains, T.toString_plain⟩

/-! ## §2. `client_ip.rs`. -/

def ipInCidr (ip network : IpAddr) (prefixLen : UInt8) : Bool :=
  match ip, network with
  | .v4 ip4, .v4 net4 =>
      if prefixLen > 32 then false
      else
        let mask : BitVec 32 := if prefixLen = 0 then 0 else BitVec.allOnes 32 <<< (32 - prefixLen).toNat
        ip4 &&& mask == net4 &&& mask
  | .v6 ip6, .v6 net6 =>
      if prefixLen > 128 then false
      else
        let mask : BitVec 128 := if prefixLen = 0 then 0 else BitVec.allOnes 128 <<< (128 - prefixLen).toNat
        ip6 &&& mask == net6 &&& mask
  | _, _ => false

def parseU8 (text : String) : Option UInt8 := (parseUnsigned (2 ^ 8) text).map UInt8.ofNat

/-- The entries of a comma-separated text. -/
def splitCommas (s : String) : List String := (s.toList.splitOn ',').map .ofList

section Client

variable (T : AddrText)

/-- What the loop of `is_trusted_proxy` asks of one CIDR. -/
def isWithin (ip : IpAddr) (cidr : String) : Bool :=
  match splitOnce '/' cidr with
  | some (network, len) =>
      match T.parse network, parseU8 len with
      | some networkIp, some prefixLen => ipInCidr ip networkIp prefixLen
      | _, _ => false
  | none => T.parse cidr == some ip

def isTrustedProxy (ip : IpAddr) (trustedCidrs : List String) : Bool :=
  trustedCidrs.any fun cidr => isWithin T ip cidr

def extractClientIp (peerAddr : IpAddr) (xForwardedFor xRealIp : Option String)
    (trustedCidrs : List String) : IpAddr :=
  if !isTrustedProxy T peerAddr trustedCidrs then peerAddr
  else
    let first := xForwardedFor.bind fun xff => (splitCommas xff).head?.bind fun first => T.parse (trim first)
    let real := xRealIp.bind fun xri => T.parse (trim xri)
    (first.or real).getD peerAddr

end Client

/-! ## §3. `security.rs`. -/

section Security

variable (N : Network)

/-- The first candidate that is an address; one that is not is passed over. -/
def firstAddr (candidates : List String) : Option N.Addr :=
  candidates.findSome? fun raw =>
    let candidate := trim raw
    if candidate.toList.isEmpty then none else N.parse candidate

def extractClientIpCidrs (xForwardedFor xRealIp : Option HeaderValue) (connectInfo : Option N.Addr)
    (trustProxy : Bool) (trustedCidrs : List N.Net) : String :=
  let proxyTrusted :=
    if trustedCidrs.isEmpty then trustProxy
    else ((connectInfo.bind fun ip => N.parse (N.toString ip)).map fun ip =>
      trustedCidrs.any fun cidr => N.contains cidr ip).getD false
  let forwarded := (xForwardedFor.bind toStr).bind fun s => firstAddr N (splitCommas s)
  let real := (xRealIp.bind toStr).bind fun s => firstAddr N [s]
  let socket := (connectInfo.map N.toString).getD "unknown"
  if proxyTrusted then ((forwarded.or real).map N.toString).getD socket else socket

variable {N} in
/-- With networks, their headers count for a peer that is in one of them. -/
theorem extractClientIpCidrs_eq {nets : List N.Net} {peer : N.Addr} (hne : nets ≠ [])
    (hback : N.parse (N.toString peer) = some peer) (xForwardedFor xRealIp : Option HeaderValue)
    (trustProxy : Bool) :
    extractClientIpCidrs N xForwardedFor xRealIp (some peer) trustProxy nets
      = if nets.any fun net => N.contains net peer then
          N.toString ((((xForwardedFor.bind toStr).bind fun s => firstAddr N (splitCommas s)).or
            ((xRealIp.bind toStr).bind fun s => firstAddr N [s])).getD peer)
        else N.toString peer := by
  have hempty : nets.isEmpty = false := List.isEmpty_eq_false_iff.mpr hne
  unfold extractClientIpCidrs
  simp only [hempty, Bool.false_eq_true, if_false, Option.bind_some, hback, Option.map_some,
    Option.getD_some]
  split
  case isTrue =>
    cases Option.or ((xForwardedFor.bind toStr).bind fun s => firstAddr N (splitCommas s))
      ((xRealIp.bind toStr).bind fun s => firstAddr N [s]) <;> rfl
  case isFalse => rfl

/-- The middleware of idempotency keys asks the same of a request. -/
theorem idempotency_extractClientIp {K : Idempotency.Crates} (cfg : Idempotency.IdempotencyConfig K.network)
    (req : Idempotency.Request K.network.Addr) :
    Idempotency.extractClientIp cfg req = extractClientIpCidrs K.network req.xForwardedFor req.xRealIp
      req.connectInfo cfg.trustProxy cfg.trustedProxyCidrs := rfl

end Security

/-! ## §4. The same networks. -/

/-- Masks leave the bits from some place on. -/
theorem and_mask_eq_iff {w : Nat} (a b : BitVec w) (k : Nat) :
    a &&& BitVec.allOnes w <<< k = b &&& BitVec.allOnes w <<< k ↔ a >>> k = b >>> k := by
  constructor
  · intro h
    apply BitVec.eq_of_getLsbD_eq
    intro i hi
    have hbit := congrArg (fun x : BitVec w => x.getLsbD (k + i)) h
    simp only [BitVec.getLsbD_and, BitVec.getLsbD_shiftLeft, BitVec.getLsbD_allOnes] at hbit
    rw [BitVec.getLsbD_ushiftRight, BitVec.getLsbD_ushiftRight]
    by_cases hin : k + i < w
    · simpa [hin, hi] using hbit
    · rw [BitVec.getLsbD_of_ge _ _ (by omega), BitVec.getLsbD_of_ge _ _ (by omega)]
  · intro h
    apply BitVec.eq_of_getLsbD_eq
    intro i hi
    simp only [BitVec.getLsbD_and, BitVec.getLsbD_shiftLeft, BitVec.getLsbD_allOnes]
    by_cases hlow : i < k
    · simp [hlow]
    · have hbit := congrArg (fun x : BitVec w => x.getLsbD (i - k)) h
      simp only [BitVec.getLsbD_ushiftRight, Nat.add_sub_cancel' (Nat.le_of_not_lt hlow)] at hbit
      rw [hbit]

/-- The mask of a prefix, that of length zero too. -/
theorem mask_eq (w : Nat) (width : UInt8) {prefixLen : UInt8} (hw : width.toNat = w) (h : prefixLen ≤ width) :
    (if prefixLen = 0 then 0 else BitVec.allOnes w <<< (width - prefixLen).toNat)
      = BitVec.allOnes w <<< (w - prefixLen.toNat) := by
  split
  case isTrue hzero =>
    rw [hzero]
    apply BitVec.eq_of_getLsbD_eq
    intro i hi
    simp [hi]
  case isFalse =>
    rw [UInt8.toNat_sub_of_le _ _ h, hw]

/-- A text that is an address, a slash and a prefix length. -/
def Names (T : AddrText) (cidr : String) (net : IpNet) : Prop :=
  ∃ network len, splitOnce '/' cidr = some (network, len) ∧ T.parse network = some net.addr
    ∧ (parseU8 len).map UInt8.toNat = some net.prefixLen

theorem ipInCidr_eq_contains {net : IpNet} {prefixLen : UInt8} (h : prefixLen.toNat = net.prefixLen)
    (ip : IpAddr) : ipInCidr ip net.addr prefixLen = net.contains ip := by
  have hle := net.prefixLen_le
  unfold ipInCidr IpNet.contains
  rw [← h] at hle ⊢
  cases haddr : net.addr with
  | v4 net4 =>
      cases ip with
      | v4 ip4 =>
          rw [haddr] at hle
          have hle : prefixLen ≤ 32 := UInt8.le_iff_toNat_le.mpr hle
          simp only [if_neg (UInt8.not_lt.mpr hle), mask_eq 32 32 rfl hle]
          rw [Bool.eq_iff_iff, beq_iff_eq, beq_iff_eq, and_mask_eq_iff]
          exact eq_comm
      | v6 ip6 => rfl
  | v6 net6 =>
      cases ip with
      | v4 ip4 => rfl
      | v6 ip6 =>
          rw [haddr] at hle
          have hle : prefixLen ≤ 128 := UInt8.le_iff_toNat_le.mpr hle
          simp only [if_neg (UInt8.not_lt.mpr hle), mask_eq 128 128 rfl hle]
          rw [Bool.eq_iff_iff, beq_iff_eq, beq_iff_eq, and_mask_eq_iff]
          exact eq_comm

/-- **Both test the same membership.** -/
theorem isTrustedProxy_eq {T : AddrText} {cidrs : List String} {nets : List IpNet}
    (h : List.Forall₂ (Names T) cidrs nets) (ip : IpAddr) :
    isTrustedProxy T ip cidrs = nets.any fun net => net.contains ip := by
  induction h with
  | nil => rfl
  | @cons cidr net cidrs nets hnames hrest ih =>
      obtain ⟨network, len, hcut, haddr, hlen⟩ := hnames
      obtain ⟨prefixLen, hparse, hprefix⟩ := Option.map_eq_some_iff.mp hlen
      have hhead : isWithin T ip cidr = net.contains ip := by
        unfold isWithin
        rw [hcut]
        simp only [haddr, hparse]
        exact ipInCidr_eq_contains hprefix ip
      unfold isTrustedProxy at ih ⊢
      rw [List.any_cons, List.any_cons, ih, hhead]

/-! ## §5. Where they name the same address. -/

section Agreement

variable (T : AddrText)

/-- What a text is, between its blanks. -/
def addrOf (raw : String) : Option IpAddr := T.parse (trim raw)

/-- The entries of `X-Forwarded-For`, none without one. -/
def hops (xForwardedFor : Option String) : List String := (xForwardedFor.map splitCommas).getD []

/-- The address without `X-Forwarded-For`. -/
def fallback (peer : IpAddr) (xRealIp : Option String) : IpAddr := (xRealIp.bind (addrOf T)).getD peer

variable {T} {cidrs : List String} {nets : List IpNet} {peer : IpAddr}

/-- An empty candidate is no address anyhow. -/
theorem firstAddr_eq (candidates : List String) :
    firstAddr (ipNetwork T) candidates = candidates.findSome? (addrOf T) := by
  have heach : ∀ raw : String, (if (trim raw).toList.isEmpty then none else T.parse (trim raw))
      = addrOf T raw := fun raw => by
    split
    case isTrue hempty =>
      have hnil : trim raw = "" := by
        rw [← String.toList_inj, List.isEmpty_iff.mp hempty]
        rfl
      rw [addrOf, hnil, T.parse_empty]
    case isFalse => rfl
  exact congrArg (fun f => List.findSome? f candidates) (funext heach)

theorem extractClientIp_untrusted (htrusted : isTrustedProxy T peer cidrs = false)
    (xForwardedFor xRealIp : Option String) :
    extractClientIp T peer xForwardedFor xRealIp cidrs = peer := by
  unfold extractClientIp
  rw [htrusted]
  rfl

/-- **`client_ip.rs`** looks at the first entry. -/
theorem extractClientIp_trusted (htrusted : isTrustedProxy T peer cidrs = true)
    (xForwardedFor xRealIp : Option String) :
    extractClientIp T peer xForwardedFor xRealIp cidrs
      = ((hops xForwardedFor).head?.bind (addrOf T)).getD (fallback T peer xRealIp) := by
  unfold extractClientIp
  rw [htrusted]
  simp only [Bool.not_true, Bool.false_eq_true, if_false]
  cases xForwardedFor with
  | none => rfl
  | some xff =>
      show (Option.or ((splitCommas xff).head?.bind (addrOf T)) (xRealIp.bind (addrOf T))).getD peer
        = ((splitCommas xff).head?.bind (addrOf T)).getD _
      cases (splitCommas xff).head?.bind (addrOf T) <;> rfl

theorem extractClientIpCidrs_untrusted (hne : nets ≠ [])
    (htrusted : (nets.any fun net => net.contains peer) = false)
    (xForwardedFor xRealIp : Option HeaderValue) (trustProxy : Bool) :
    extractClientIpCidrs (ipNetwork T) xForwardedFor xRealIp (some peer) trustProxy nets
      = T.toString peer := by
  rw [extractClientIpCidrs_eq hne (T.parse_toString peer)]
  exact if_neg (Bool.not_eq_true _ ▸ htrusted)

/-- **`security.rs`** looks for the first entry that is an address. -/
theorem extractClientIpCidrs_trusted (hne : nets ≠ [])
    (htrusted : (nets.any fun net => net.contains peer) = true)
    (xForwardedFor xRealIp : Option HeaderValue) (trustProxy : Bool) :
    extractClientIpCidrs (ipNetwork T) xForwardedFor xRealIp (some peer) trustProxy nets
      = T.toString (((hops (xForwardedFor.bind toStr)).findSome? (addrOf T)).getD
          (fallback T peer (xRealIp.bind toStr))) := by
  have hforwarded : ((xForwardedFor.bind toStr).bind fun s => firstAddr (ipNetwork T) (splitCommas s))
      = (hops (xForwardedFor.bind toStr)).findSome? (addrOf T) := by
    cases xForwardedFor.bind toStr with
    | none => rfl
    | some s => exact firstAddr_eq _
  have hreal : ((xRealIp.bind toStr).bind fun s => firstAddr (ipNetwork T) [s])
      = (xRealIp.bind toStr).bind (addrOf T) := by
    cases xRealIp.bind toStr with
    | none => rfl
    | some s =>
        show firstAddr (ipNetwork T) [s] = addrOf T s
        rw [firstAddr_eq, List.findSome?_singleton]
  rw [extractClientIpCidrs_eq hne (T.parse_toString peer)]
  refine (if_pos htrusted).trans ?_
  rw [hforwarded, hreal]
  unfold fallback
  cases (hops (xForwardedFor.bind toStr)).findSome? (addrOf T) <;> rfl

theorem toString_injective (T : AddrText) : Function.Injective T.toString := fun ip ip' h => by
  have hparsed := congrArg T.parse h
  rw [T.parse_toString, T.parse_toString] at hparsed
  exact Option.some.inj hparsed

/-- What is read of the header of a text. -/
def legible (header : Option String) : Option String := header.filter fun s => s.toList.all isVisible

theorem bind_toStr_map_utf8 (header : Option String) : (header.map utf8).bind toStr = legible header := by
  cases header with
  | none => rfl
  | some s =>
      show toStr (utf8 s) = _
      rw [toStr_utf8]
      rfl

theorem legible_cases (header : Option String) : legible header = header ∨ legible header = none := by
  cases header with
  | none => exact .inl rfl
  | some s =>
      unfold legible
      rw [Option.filter_some]
      split
      · exact .inl rfl
      · exact .inr rfl

/-- The first entry is an address; or none is, and `X-Real-IP` comes to the same
in both; or the first that is one is what would be taken without the header.
Where the header is not read, its first entry comes to what the other takes. -/
def SameHop (T : AddrText) (peer : IpAddr) (xForwardedFor xRealIp : Option String) : Prop :=
  if legible xForwardedFor = xForwardedFor then
    ((hops xForwardedFor).head?.bind (addrOf T)).isSome
      ∨ ((∀ hop ∈ hops xForwardedFor, addrOf T hop = none)
        ∧ fallback T peer (legible xRealIp) = fallback T peer xRealIp)
      ∨ (hops xForwardedFor).findSome? (addrOf T) = some (fallback T peer xRealIp)
  else ((hops xForwardedFor).head?.bind (addrOf T)).getD (fallback T peer xRealIp) = fallback T peer (legible xRealIp)

/-- The first entry and the first address come to the same. -/
theorem findSome_eq_head_iff (entries : List String) (ip ip' : IpAddr) :
    (entries.findSome? (addrOf T)).getD ip = (entries.head?.bind (addrOf T)).getD ip'
      ↔ (entries.head?.bind (addrOf T)).isSome ∨ ((∀ hop ∈ entries, addrOf T hop = none) ∧ ip = ip')
        ∨ entries.findSome? (addrOf T) = some ip' := by
  cases entries with
  | nil => simp
  | cons hop rest =>
      rw [List.head?_cons, Option.bind_some, List.findSome?_cons]
      cases hhop : addrOf T hop with
      | some addr => simp
      | none =>
          simp only [Option.isSome_none, Bool.false_eq_true, false_or, Option.getD_none,
            List.forall_mem_cons, hhop, true_and]
          -- the first entry names nothing: one extractor falls back, the other reads on
          cases hrest : rest.findSome? (addrOf T) with
          | none =>
              have hnone := List.findSome?_eq_none_iff.mp hrest
              constructor
              · exact fun hsame => .inl ⟨hnone, hsame⟩
              · rintro (⟨-, hsame⟩ | hsame)
                · exact hsame
                · cases hsame
          | some addr =>
              rw [Option.getD_some, Option.some.injEq]
              constructor
              · exact .inr
              · rintro (⟨hnone, -⟩ | hsame)
                · rw [List.findSome?_eq_none_iff.mpr hnone] at hrest
                  cases hrest
                · exact hsame

/-- **The two addresses** are one exactly in these cases. -/
theorem sameHop_iff {xForwardedFor xRealIp : Option String} :
    ((hops (legible xForwardedFor)).findSome? (addrOf T)).getD (fallback T peer (legible xRealIp))
        = ((hops xForwardedFor).head?.bind (addrOf T)).getD (fallback T peer xRealIp)
      ↔ SameHop T peer xForwardedFor xRealIp := by
  unfold SameHop
  split
  case isTrue hread =>
    rw [hread]
    exact findSome_eq_head_iff _ _ _
  case isFalse hunread =>
    rw [(legible_cases xForwardedFor).resolve_left hunread]
    exact eq_comm

/-- **Where the extractors agree.**  From a peer in none of the networks both
name the peer.  From one of them, they name the same address exactly when the
first entry of `X-Forwarded-For` is an address, or no entry is, or the first
that is one is the address they would name without the header; and, with
headers that are not visible ASCII, when what is not read makes no difference. -/
theorem extractors_agree_iff (hnets : List.Forall₂ (Names T) cidrs nets) (hne : cidrs ≠ [])
    (xForwardedFor xRealIp : Option String) (trustProxy : Bool) :
    ((nets.any fun net => net.contains peer) = false →
        extractClientIp T peer xForwardedFor xRealIp cidrs = peer
          ∧ extractClientIpCidrs (ipNetwork T) (xForwardedFor.map utf8) (xRealIp.map utf8) (some peer) trustProxy nets
            = T.toString peer)
      ∧ ((nets.any fun net => net.contains peer) = true →
        (extractClientIpCidrs (ipNetwork T) (xForwardedFor.map utf8) (xRealIp.map utf8) (some peer) trustProxy nets
            = T.toString (extractClientIp T peer xForwardedFor xRealIp cidrs)
          ↔ SameHop T peer xForwardedFor xRealIp)) := by
  have hne' : nets ≠ [] := by
    rintro rfl
    cases hnets
    exact hne rfl
  have hsame := isTrustedProxy_eq hnets peer
  constructor
  · intro huntrusted
    exact ⟨extractClientIp_untrusted (hsame.trans huntrusted) _ _,
      extractClientIpCidrs_untrusted hne' huntrusted _ _ _⟩
  · intro htrusted
    -- both are addresses, and an address is told by its text
    rw [extractClientIpCidrs_trusted hne' htrusted, extractClientIp_trusted (hsame.trans htrusted),
      (toString_injective T).eq_iff, bind_toStr_map_utf8, bind_toStr_map_utf8]
    exact sameHop_iff

end Agreement

/-! ## §6. Addresses in decimal. -/

/-- The four bytes of a number, between dots. -/
def dotted (n : Nat) : String :=
  toString (n / 16777216) ++ "." ++ (toString (n / 65536 % 256) ++ "." ++
    (toString (n / 256 % 256) ++ "." ++ toString (n % 256)))

def parseDotted (s : String) : Option Nat := do
  let a ← splitOnce '.' s
  let b ← splitOnce '.' a.2
  let c ← splitOnce '.' b.2
  let a ← parseUnsigned 256 a.1
  let b ← parseUnsigned 256 b.1
  let d ← parseUnsigned 256 c.2
  let c ← parseUnsigned 256 c.1
  return ((a * 256 + b) * 256 + c) * 256 + d

theorem parseDotted_dotted {n : Nat} (h : n < 2 ^ 32) : parseDotted (dotted n) = some n := by
  have hdot : ∀ m : Nat, '.' ∉ (toString m).toList := fun m => not_mem_toString rfl
  unfold parseDotted dotted
  rw [splitOnce_append _ rfl (hdot _)]
  simp only [Option.bind_eq_bind, Option.bind_some]
  rw [splitOnce_append _ rfl (hdot _)]
  simp only [Option.bind_some]
  rw [splitOnce_append _ rfl (hdot _)]
  simp only [Option.bind_some]
  rw [parseUnsigned_toString (n := n / 16777216) (by omega),
    parseUnsigned_toString (n := n / 65536 % 256) (by omega),
    parseUnsigned_toString (n := n / 256 % 256) (by omega),
    parseUnsigned_toString (n := n % 256) (by omega)]
  simp only [Option.bind_some]
  show some _ = some n
  congr 1
  omega

/-- Of version 4 the dotted form; of version 6 a colon and the number. -/
def decimalText : AddrText where
  parse s :=
    if s.toList.head? = some ':' then
      (parseUnsigned (2 ^ 128) (.ofList s.toList.tail)).map fun n => .v6 (.ofNat 128 n)
    else (parseDotted s).map fun n => .v4 (.ofNat 32 n)
  toString ip :=
    match ip with
    | .v4 bits => dotted bits.toNat
    | .v6 bits => ":" ++ toString bits.toNat
  parse_toString ip := by
    cases ip with
    | v4 bits =>
        have hhead : (dotted bits.toNat).toList.head? ≠ some ':' := by
          intro hhead
          have hmem := List.mem_of_head? hhead
          unfold dotted at hmem
          simp only [String.toList_append, List.mem_append, not_mem_toString (c := ':') rfl, false_or,
            or_false] at hmem
          revert hmem
          decide
        simp only [if_neg hhead, parseDotted_dotted bits.isLt, Option.map_some, BitVec.ofNat_toNat,
          BitVec.setWidth_eq]
    | v6 bits =>
        have hlist : (":" ++ toString bits.toNat).toList = ':' :: (toString bits.toNat).toList := by
          rw [String.toList_append]
          rfl
        simp only [hlist, List.head?_cons, if_true, List.tail_cons, String.ofList_toList,
          parseUnsigned_toString bits.isLt, Option.map_some, BitVec.ofNat_toNat, BitVec.setWidth_eq]
  parse_empty := by decide
  toString_plain ip := by
    cases ip with
    | v4 bits =>
        simp only [dotted, String.toList_append, List.mem_append, not_mem_toString (c := '|') rfl,
          false_or, or_false]
        decide
    | v6 bits =>
        simp only [String.toList_append, List.mem_append, not_mem_toString (c := '|') rfl, or_false]
        decide

/-- A proxy at 10.0.0.1, of the network 10.0.0.0/8. -/
def proxy : IpAddr := .v4 0x0A000001

def proxies : IpNet := ⟨.v4 0x0A000000, 8, by decide⟩

theorem names_proxies : List.Forall₂ (Names decimalText) ["10.0.0.0/8"] [proxies] :=
  .cons ⟨"10.0.0.0", "8", by decide, by decide, by decide⟩ .nil

theorem extractors_agree_oneHop :
    extractClientIpCidrs (ipNetwork decimalText) ((some "1.2.3.4").map utf8) none (some proxy) true [proxies]
      = decimalText.toString (extractClientIp decimalText proxy (some "1.2.3.4") none ["10.0.0.0/8"]) :=
  ((extractors_agree_iff names_proxies (by decide) (some "1.2.3.4") none true).2 (by decide)).mpr
    ((if_pos (by decide)).mpr (.inl (by decide)))

/-- After an entry that is no address, one names the peer and the other goes on. -/
theorem extractors_differ_unknownHop :
    List.Forall₂ (Names decimalText) ["10.0.0.0/8"] [proxies]
      ∧ extractClientIp decimalText proxy (some "x,1.2.3.4") none ["10.0.0.0/8"] = proxy
      ∧ extractClientIpCidrs (ipNetwork decimalText) ((some "x,1.2.3.4").map utf8) none (some proxy) true [proxies]
        = "1.2.3.4"
      ∧ decimalText.toString proxy ≠ "1.2.3.4" :=
  ⟨names_proxies, by decide, by decide +kernel, by decide⟩

end PredictIQ.ClientIp
