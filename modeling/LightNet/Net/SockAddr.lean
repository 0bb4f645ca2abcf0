/-
# LightNet.Net.SockAddr — IPv4 socket addresses and their text.

`toIpPort` is `sockets::to_ip_port`, the key under which the game server files its peers.  It is
injective: two peers with the same text have the same address and port.
-/
import LightNet.Foundation.Decimal

namespace LightNet.Net

open LightNet.Foundation

/-- `sockaddr_in`: the four bytes of the address in the order they are written, and the port. -/
structure SockAddrIn where
  a : UInt8
  b : UInt8
  c : UInt8
  d : UInt8
  port : UInt16
  deriving DecidableEq

/-- `sockets::to_ip_port(addr)`. -/
def toIpPort (addr : SockAddrIn) : Bytes :=
  decimal addr.a.toNat ++ 46 :: (decimal addr.b.toNat ++ 46 :: (decimal addr.c.toNat
    ++ 46 :: (decimal addr.d.toNat ++ 58 :: decimal addr.port.toNat)))

theorem dot_not_mem (n : Nat) : (46 : UInt8) ∉ decimal n := by
  intro h
  exact absurd (mem_decimal h).1 (by decide)

theorem colon_not_mem (n : Nat) : (58 : UInt8) ∉ decimal n := by
  intro h
  exact absurd (mem_decimal h).2 (by decide)

theorem byte_eq_of_decimal {x y : UInt8} (h : decimal x.toNat = decimal y.toNat) : x = y := by
  have hx : x.toNat < 256 := x.toNat_lt
  have hy : y.toNat < 256 := y.toNat_lt
  exact UInt8.toNat_inj.mp (decimal_injective (by omega) (by omega) h)

/-- **The text of an address determines it.** -/
theorem toIpPort_injective : Function.Injective toIpPort := by
  intro x y h
  -- no number contains a separator, so the five numbers can be taken off one by one
  obtain ⟨ha, h⟩ := append_separator_inj (dot_not_mem _) (dot_not_mem _) h
  obtain ⟨hb, h⟩ := append_separator_inj (dot_not_mem _) (dot_not_mem _) h
  obtain ⟨hc, h⟩ := append_separator_inj (dot_not_mem _) (dot_not_mem _) h
  obtain ⟨hd, hport⟩ := append_separator_inj (colon_not_mem _) (colon_not_mem _) h
  have hx : x.port.toNat < 65536 := x.port.toNat_lt
  have hy : y.port.toNat < 65536 := y.port.toNat_lt
  have hp : x.port = y.port :=
    UInt16.toNat_inj.mp (decimal_injective (by omega) (by omega) hport)
  cases x
  cases y
  simp only [SockAddrIn.mk.injEq]
  exact ⟨byte_eq_of_decimal ha, byte_eq_of_decimal hb, byte_eq_of_decimal hc,
    byte_eq_of_decimal hd, hp⟩

end LightNet.Net
