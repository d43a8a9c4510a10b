import LedgerAudit.Curve.Basic

/-!
# The two curves of node keys
-/

namespace LedgerAudit

inductive NamedCurve
  | p256
  | p384
deriving DecidableEq, Repr

namespace NamedCurve

def name : NamedCurve → String
  | .p256 => "secp256r1"
  | .p384 => "secp384r1"

def curve : NamedCurve → Curve
  | .p256 => {
    prime := 0xffffffff00000001000000000000000000000000ffffffffffffffffffffffff
    b := 0x5ac635d8aa3a93e7b3ebbd55769886bc651d06b0cc53b0f63bce3c3e27d2604b
    order := 0xffffffff00000000ffffffffffffffffbce6faada7179e84f3b9cac2fc632551
    generatorX := 0x6b17d1f2e12c4247f8bce6e563a440f277037d812deb33a0f4a13945d898c296
    generatorY := 0x4fe342e2fe1a7f9b8ee7eb4a7c0f9e162bce33576b315ececbb6406837bf51f5
    width := 32 }
  | .p384 => {
    prime := 1 <<< 384 - 1 <<< 128 - 1 <<< 96 + 1 <<< 32 - 1
    b :=
      0xb3312fa7e23ee7e4988e056be3f82d19181d9c6efe814112 <<< 192 +
      0x0314088f5013875ac656398d8a2ed19d2a85c8edd3ec2aef
    order :=
      0xffffffffffffffffffffffffffffffffffffffffffffffff <<< 192 +
      0xc7634d81f4372ddf581a0db248b0a77aecec196accc52973
    generatorX :=
      0xaa87ca22be8b05378eb1c71ef320ad746e1d3b628ba79b98 <<< 192 +
      0x59f741e082542a385502f25dbf55296c3a545e3872760ab7
    generatorY :=
      0x3617de4a96262c6f5d9e98bf9292dc29f8f41dbd289a147c <<< 192 +
      0xe9da3113b5f0b8c00a60b1ce1d7e819d7a431d7c90ea0e5f
    width := 48 }

end NamedCurve

end LedgerAudit
