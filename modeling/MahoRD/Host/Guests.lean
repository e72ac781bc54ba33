/-
MahoRD/Host/Guests.lean

What a guest may do (`maho-host/src/guests.rs`): permissions are intersected
with what the host allows, an input event needs the permission of its class,
and a trust that is stored admits its peer only while it is valid.
-/
import MahoRD.Proto.Parity
import MahoRD.Proto.Input

namespace MahoRD.Guests

def intersect (a b : GuestPermissions) : GuestPermissions where
  keyboard := a.keyboard && b.keyboard
  mouse := a.mouse && b.mouse
  gamepad := a.gamepad && b.gamepad
  clipboard := a.clipboard && b.clipboard
  audio := a.audio && b.audio

def allows (p : GuestPermissions) : InputEventType → Bool
  | .keyDown | .keyUp | .flagsChanged | .unicodeChar => p.keyboard
  | .gamepadAxis | .gamepadButtonDown | .gamepadButtonUp => p.gamepad
  | .reset => true
  | _ => p.mouse

def validTrust (trust : PairingTrust) (now : UInt64) : Bool :=
  match trust with
  | .owner => true
  | .guestOnce => false
  | .guestExpiring expiresAtUnixMs => now < expiresAtUnixMs

end MahoRD.Guests
