import NextSocks5.Protocol.Address

set_option autoImplicit false

namespace NextSocks5

def repSucceeded : UInt8 := 0x00

def encodeReply (code : UInt8) (bind : Address) (out : Bytes) : Bytes :=
  bind.encode (out ++ [0x05, code, 0x00])

inductive Socks5Error where
  | general
  | notAllowed
  | networkUnreachable
  | hostUnreachable
  | connectionRefused
  | ttlExpired
  | commandNotSupported
  | addressNotSupported
deriving DecidableEq, Repr

def Socks5Error.replyCode : Socks5Error → UInt8
  | .general => 0x01
  | .notAllowed => 0x02
  | .networkUnreachable => 0x03
  | .hostUnreachable => 0x04
  | .connectionRefused => 0x05
  | .ttlExpired => 0x06
  | .commandNotSupported => 0x07
  | .addressNotSupported => 0x08

-- The io::ErrorKind values the code tells apart; every other kind is `other`.
inductive ErrorKind where
  | networkUnreachable
  | hostUnreachable
  | connectionRefused
  | timedOut
  | addrNotAvailable
  | addrInUse
  | permissionDenied
  | other
deriving DecidableEq, Repr

structure IoError where
  kind : ErrorKind
  msg : String
deriving DecidableEq, Repr

def Socks5Error.fromIo (error : IoError) : Socks5Error :=
  match error.kind with
  | .networkUnreachable => .networkUnreachable
  | .hostUnreachable => .hostUnreachable
  | .connectionRefused => .connectionRefused
  | .timedOut => .ttlExpired
  | .addrNotAvailable => .hostUnreachable
  | _ => .general

end NextSocks5
