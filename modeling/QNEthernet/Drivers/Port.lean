/-! What the driver headers define for the rest of the library. -/

namespace QNEthernet.Drivers

inductive Port where
  | teensy41 | w5500 | cyw4343w | unsupported
  deriving DecidableEq

def Port.maxFrameLen : Port → Nat
  | .teensy41 | .w5500 | .unsupported => 1518
  | .cyw4343w => 4018

end QNEthernet.Drivers
