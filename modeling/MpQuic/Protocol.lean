namespace MpQuic.Protocol

inductive EncryptionLevel where
  | unspecified
  | unencrypted
  | secure
  | forwardSecure
  deriving DecidableEq, Repr

def EncryptionLevel.rank : EncryptionLevel → Nat
  | unspecified => 0
  | unencrypted => 1
  | secure => 2
  | forwardSecure => 3

end MpQuic.Protocol
