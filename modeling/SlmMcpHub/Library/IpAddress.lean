import Mathlib.Algebra.Group.Nat.Defs
import Mathlib.Data.Nat.Basic
import Mathlib.Tactic.Common

/-!
# Internet addresses

Addresses of both versions as bit vectors, and the networks they lie in: a network is the range of
the addresses that begin like it.

## Main definitions

* `IpAddress`, `Network`, `Network.contains`
* `Between` — a range of addresses, by its first and its last
* `IpAddress.mapped`, `IpAddress.ipv4Mapped` — an IPv4 address inside an IPv6 one

## Main results

* `Network.contains_iff` — a network is a range
* `IpAddress.ipv4Mapped_mapped` — the address inside is found again
-/

namespace SlmMcpHub

/-- An address. -/
inductive IpAddress where
  | v4 (bits : BitVec 32)
  | v6 (bits : BitVec 128)
deriving DecidableEq

/-- A network: no bit of its address is set after its beginning. -/
structure Network (w : ℕ) where
  address : BitVec w
  prefixLength : ℕ
  aligned : 2 ^ (w - prefixLength) ∣ address.toNat

/-- `address in network` -/
def Network.contains {w : ℕ} (net : Network w) (bits : BitVec w) : Bool :=
  bits >>> (w - net.prefixLength) = net.address >>> (w - net.prefixLength)

/-- A network is the range of the addresses that begin like it. -/
theorem Network.contains_iff {w : ℕ} {net : Network w} {bits : BitVec w} :
    net.contains bits = true ↔ net.address.toNat ≤ bits.toNat ∧
      bits.toNat < net.address.toNat + 2 ^ (w - net.prefixLength) := by
  obtain ⟨k, hk⟩ := net.aligned
  have hpos : 0 < 2 ^ (w - net.prefixLength) := Nat.two_pow_pos _
  rw [Network.contains, decide_eq_true_eq, ← BitVec.toNat_inj, BitVec.toNat_ushiftRight,
    BitVec.toNat_ushiftRight, Nat.shiftRight_eq_div_pow, Nat.shiftRight_eq_div_pow, hk,
    Nat.mul_div_cancel_left k hpos, Nat.div_eq_iff hpos, Nat.mul_comm k]
  omega

/-- A range of addresses. -/
def Between {w : ℕ} (first last bits : BitVec w) : Prop :=
  first.toNat ≤ bits.toNat ∧ bits.toNat ≤ last.toNat

instance {w : ℕ} (first last bits : BitVec w) : Decidable (Between first last bits) :=
  inferInstanceAs (Decidable (_ ∧ _))

theorem Network.contains_of_between {w : ℕ} {net : Network w} {last bits : BitVec w}
    (h : Between net.address last bits)
    (hlast : last.toNat < net.address.toNat + 2 ^ (w - net.prefixLength)) :
    net.contains bits = true :=
  Network.contains_iff.mpr ⟨h.1, Nat.lt_of_le_of_lt h.2 hlast⟩

namespace IpAddress

/-- An IPv4 address from its four numbers. -/
def dotted (a b c d : ℕ) : BitVec 32 := .ofNat 32 (a * 2 ^ 24 + b * 2 ^ 16 + c * 2 ^ 8 + d)

/-- The IPv6 address with this first group and nothing after it. -/
def group (g : ℕ) : BitVec 128 := .ofNat 128 (g * 2 ^ 112)

/-- An IPv4 address inside an IPv6 one: `::ffff:a.b.c.d` -/
def mapped (bits : BitVec 32) : BitVec 128 := 0xffff#96 ++ bits

/-- `address.ipv4_mapped` -/
def ipv4Mapped (bits : BitVec 128) : Option (BitVec 32) :=
  if bits >>> 32 = 0xffff#128 then some (bits.setWidth 32) else none

theorem toNat_mapped (bits : BitVec 32) : (mapped bits).toNat = 0xffff * 2 ^ 32 + bits.toNat := by
  rw [mapped, BitVec.toNat_append, ← Nat.shiftLeft_add_eq_or_of_lt bits.isLt,
    Nat.shiftLeft_eq]
  rfl

@[simp] theorem ipv4Mapped_mapped (bits : BitVec 32) : ipv4Mapped (mapped bits) = some bits := by
  have hlt := bits.isLt
  have hhigh : mapped bits >>> 32 = 0xffff#128 := by
    rw [← BitVec.toNat_inj, BitVec.toNat_ushiftRight, toNat_mapped, Nat.shiftRight_eq_div_pow]
    show (0xffff * 2 ^ 32 + bits.toNat) / 2 ^ 32 = 0xffff
    omega
  have hlow : (mapped bits).setWidth 32 = bits := by
    rw [← BitVec.toNat_inj, BitVec.toNat_setWidth, toNat_mapped]
    omega
  rw [ipv4Mapped, if_pos hhigh, hlow]

/-- An address whose first group is set has no IPv4 address inside. -/
theorem ipv4Mapped_eq_none_of_le {bits : BitVec 128} (h : group 1 ≤ bits) :
    ipv4Mapped bits = none := by
  refine if_neg fun hhigh => ?_
  have hle : 1 * 2 ^ 112 ≤ bits.toNat := h
  have hdiv : bits.toNat / 2 ^ 32 = 0xffff := by
    rw [← Nat.shiftRight_eq_div_pow, ← BitVec.toNat_ushiftRight, hhigh]
    rfl
  omega

/-- `address.is_loopback`, of an IPv6 address -/
def isLoopback (bits : BitVec 128) : Bool := bits = 1#128

/-- `address.is_unspecified`, of an IPv6 address -/
def isUnspecified (bits : BitVec 128) : Bool := bits = 0#128

/-- The networks behind `address.is_link_local`, `address.is_multicast` and
`address.is_reserved`. -/
def linkLocalNetwork : Network 128 := ⟨group 0xfe80, 10, by decide⟩

def multicastNetwork : Network 128 := ⟨group 0xff00, 8, by decide⟩

def reservedNetworks : List (Network 128) :=
  [⟨group 0, 8, by decide⟩, ⟨group 0x100, 8, by decide⟩, ⟨group 0x200, 7, by decide⟩,
    ⟨group 0x400, 6, by decide⟩, ⟨group 0x800, 5, by decide⟩, ⟨group 0x1000, 4, by decide⟩,
    ⟨group 0x4000, 3, by decide⟩, ⟨group 0x6000, 3, by decide⟩, ⟨group 0x8000, 3, by decide⟩,
    ⟨group 0xa000, 3, by decide⟩, ⟨group 0xc000, 3, by decide⟩, ⟨group 0xe000, 4, by decide⟩,
    ⟨group 0xf000, 5, by decide⟩, ⟨group 0xf800, 6, by decide⟩, ⟨group 0xfe00, 9, by decide⟩]

end IpAddress

end SlmMcpHub
