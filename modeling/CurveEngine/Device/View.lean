import CurveEngine.Device.State

/-! What can be seen of an engine from outside, without an access. -/
namespace CurveEngine.Device

structure View where
  size : Nat
  errors : UInt32
  blinding : Nat
  shuffle : Bool
  zremask : Option Nat
  xyShuffle : Bool
  axiMask : Bool
  tokenMask : Bool
  irq : Bool
  postproc : Bool
  triggerUp : UInt32
  triggerDown : UInt32
  triggerArmed : Bool
  trngConfig : UInt32
  multiplying : Bool
  halted : Bool
  deriving Repr, DecidableEq

def State.view (s : State) : View where
  size := s.size
  errors := s.errors
  blinding := s.blinding
  shuffle := s.shuffle
  zremask := s.zremask
  xyShuffle := s.xyShuffle
  axiMask := s.axiMask
  tokenMask := s.tokenMask
  irq := s.irq
  postproc := s.trng.postproc
  triggerUp := s.triggerUp
  triggerDown := s.triggerDown
  triggerArmed := s.triggerArmed
  trngConfig := s.trng.config
  multiplying := s.multiplying
  halted := s.isHalted

end CurveEngine.Device
