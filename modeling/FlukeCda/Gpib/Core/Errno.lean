import FlukeCda.Port.Kernel

/-! # Error numbers of the core -/

namespace FlukeCda.Gpib.Core

export Port (ENOMEM EFAULT ENOTTY)

def EPERM : Int := 1
def EBUSY : Int := 16
def ENODEV : Int := 19
def EINVAL : Int := 22
def EPIPE : Int := 32
def ERANGE : Int := 34
def ENOSYS : Int := 38

end FlukeCda.Gpib.Core
